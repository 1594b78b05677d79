import TgWsProxy.Bridge.Model
import TgWsProxy.Foundation.Effect
import TgWsProxy.Pool.Cloudflare

/-!
# Choosing an upstream

The routing of one client connection as a program over what it shares with the
rest of the process: the four cooldown maps, the rotation counters, the pool and
the network. Each atomic access and each dial is one operation. The values
`Ws` and `Conn` of connections are left open.
-/

namespace TgWsProxy.Routing

open Foundation.Effect TgWsProxy.Crypto TgWsProxy.Cloudflare TgWsProxy.Pool
open Bridge (WsFraming)

/-- The keys of `WS_FAIL`, `IP_FAIL`, `UPSTREAM_FAIL` and `CF_WORKER_FAIL`. -/
inductive CooldownKey
  | ws (dc : Nat) (isMedia : Bool)
  | ip (targetIp : String)
  | upstream (key : String)
  | cfWorker (domain : String)
  deriving DecidableEq, Repr

inductive Op
  | active (key : CooldownKey)
  | set (key : CooldownKey) (cooldown : Nat)
  | clear (key : CooldownKey)
  | fetchAdd (counter : CfTier)
  | poolGet (dc : Nat) (isMedia : Bool) (targetIp : String) (skipTlsVerify allowRefill : Bool)
  | cfGet (tier : CfTier) (dc : Nat) (isMedia : Bool)
  | cfPrefetch (target : CfTarget)
  /-- `connect_ws_with_outbound_mode`, always over TLS. -/
  | connectWs (ip domain : String) (skipTlsVerify : Bool) (timeout : Nat)
      (sniOverride : Option String)
  /-- `connect_cf_with_path`. -/
  | connectCf (domain path : String) (requestBinarySubprotocol skipTlsVerify : Bool)
      (timeout : Nat) (disableTls : Bool) (failCooldown : Nat)
  | connectMtproto (proxy : MtProtoProxy) (dcIdx : Int16) (proto : ProtoTag) (timeout : Nat)
  deriving DecidableEq

@[reducible] def Reply (Ws Conn : Type) : Op → Type
  | .active _ => Bool
  | .set _ _ | .clear _ | .cfPrefetch _ => Unit
  | .fetchAdd _ => Nat
  | .poolGet _ _ _ _ _ => Option Ws
  | .cfGet _ _ _ => Option (Ws × String)
  | .connectWs _ _ _ _ _ | .connectCf _ _ _ _ _ _ _ => WsConnectResult Ws
  | .connectMtproto _ _ _ _ => Option Conn

abbrev sig (Ws Conn : Type) : Signature := ⟨Op, Reply Ws Conn⟩

abbrev M (Ws Conn α : Type) := Program (sig Ws Conn) α

/-- An upstream to bridge. -/
inductive Upstream (Ws Conn : Type)
  | ws (ws : Ws) (framing : WsFraming)
  | mtproto (conn : Conn)
  | tcp (dst : String)
  deriving DecidableEq, Repr

/-- What the ladder needs to route one client connection. -/
structure Route where
  config : Config
  dc : Nat
  isMedia : Bool
  dcIdx : Int16
  proto : ProtoTag

variable {Ws Conn : Type}

/-! ## Shared operations -/

def request (op : Op) : M Ws Conn (Reply Ws Conn op) :=
  @Program.perform (sig Ws Conn) op

def active (key : CooldownKey) : M Ws Conn Bool := request (.active key)

def set (key : CooldownKey) (cooldown : Nat) : M Ws Conn Unit := request (.set key cooldown)

def clear (key : CooldownKey) : M Ws Conn Unit := request (.clear key)

/-- `balance_offset` on the shared counter of a tier. -/
def balanceOffset (domains : List String) (enabled : Bool) (counter : CfTier) : M Ws Conn Nat :=
  if !enabled ∨ domains.length ≤ 1 then pure 0
  else do
    let count ← request (.fetchAdd counter)
    pure (count % domains.length)

/-! ## Names -/

def orderedRecords (base dashOne : String) (isMedia : Bool) : List String :=
  if isMedia then [dashOne, base] else [base, dashOne]

/-- The WebSocket hostnames of a data centre. -/
def wsDomains (dc : Nat) (isMedia : Bool) : List String :=
  let effectiveDc := websocketDc dc
  orderedRecords ("kws" ++ toString effectiveDc ++ ".web.telegram.org")
    ("kws" ++ toString effectiveDc ++ "-1.web.telegram.org") isMedia

def cfWorkerPath (dst : String) (dc : Nat) (isMedia : Bool) : String :=
  "/apiws?dst=" ++ dst ++ "&dc=" ++ toString dc ++ "&media=" ++ (if isMedia then "1" else "0")

def upstreamKey (proxy : MtProtoProxy) : String := proxy.host ++ ":" ++ toString proxy.port

/-! ## The direct rung -/

/-- The outcome of walking the hostnames of one data centre. -/
structure WsAttempt (Ws : Type) where
  ws : Option Ws
  allRedirects : Bool
  upgradeTimedOut : Bool
  connectTimedOut : Bool

/-- The loop of `connect_ws_for_dc_with_outbound` over the hostnames that are
left, with its flags in `attempt`. -/
def connectWsDomains (ip : String) (skipTlsVerify : Bool) (timeout : Nat)
    (sniOverride : Option String) : List String → WsAttempt Ws → M Ws Conn (WsAttempt Ws)
  | [], attempt => pure attempt
  | domain :: rest, attempt => do
      let result ← request (.connectWs ip domain skipTlsVerify timeout sniOverride)
      match result with
      | .connected ws => pure ⟨some ws, false, false, false⟩
      | .redirect _ => connectWsDomains ip skipTlsVerify timeout sniOverride rest attempt
      | .failed _ =>
          connectWsDomains ip skipTlsVerify timeout sniOverride rest
            { attempt with allRedirects := false }
      | .timedOut =>
          connectWsDomains ip skipTlsVerify timeout sniOverride rest
            { attempt with allRedirects := false, upgradeTimedOut := true }
      | .connectTimedOut _ =>
          connectWsDomains ip skipTlsVerify timeout sniOverride rest
            { attempt with allRedirects := false, connectTimedOut := true }

def connectWsForDc (ip : String) (dc : Nat) (isMedia skipTlsVerify : Bool) (timeout : Nat)
    (sniOverride : Option String) : M Ws Conn (WsAttempt Ws) :=
  connectWsDomains ip skipTlsVerify timeout sniOverride (wsDomains dc isMedia)
    ⟨none, true, false, false⟩

namespace Route

def fallbackIp (route : Route) : Option String := defaultDcIp route.dc

/-- A data centre inside its cooldown is probed on a shorter clock. -/
def connectWs (route : Route) (targetIp : String) (sniOverride : Option String) :
    M Ws Conn (WsAttempt Ws) := do
  let cooling ← active (.ws route.dc route.isMedia)
  let timeout := if cooling then route.config.wsFailProbeTimeout else route.config.wsConnectTimeout
  connectWsForDc targetIp (websocketDc route.dc) route.isMedia route.config.skipTlsVerify timeout
    sniOverride

def coolDownWs (route : Route) (allRedirects : Bool) : M Ws Conn Unit :=
  let cooldown :=
    if allRedirects then route.config.wsRedirectCooldown else route.config.wsFailCooldown
  set (.ws route.dc route.isMedia) cooldown

def coolDownIp (route : Route) (targetIp : String) : M Ws Conn Unit :=
  set (.ip targetIp) route.config.ipFailCooldown

def directWs (route : Route) (targetIp : String) : M Ws Conn (Option Ws) := do
  let fronting := route.config.frontingDomain
  let probing ← active (.ws route.dc route.isMedia)
  let attempt ← route.connectWs targetIp fronting
  match attempt.ws with
  | some ws => do
      clear (.ws route.dc route.isMedia)
      clear (.ip targetIp)
      pure (some ws)
  | none => do
      route.coolDownWs attempt.allRedirects
      -- A timeout on the shorter clock of a probe does not blame the address.
      if attempt.connectTimedOut && !probing then do
        route.coolDownIp targetIp
        pure none
      else pure none

/-- Pool first, then a fresh connect. -/
def directWsTier (route : Route) (targetIp : String) : M Ws Conn (Option (Upstream Ws Conn)) := do
  let cooling ← active (.ip targetIp)
  let pooled ← request
    (.poolGet route.dc route.isMedia targetIp route.config.skipTlsVerify !cooling)
  match pooled with
  | some ws => pure (some (.ws ws .packets))
  | none => do
      let ws ← route.directWs targetIp
      pure (ws.map fun ws => .ws ws .packets)

end Route

/-! ## Lists of endpoints with a failure cooldown -/

/-- `!force && COOLDOWNS.active(key)`. -/
def skips (force : Bool) (key : CooldownKey) : M Ws Conn Bool :=
  if force then pure false else active key

/-- The loop that `cf_worker` and `upstream_proxies` share: an endpoint in
cooldown is skipped unless forced, a failure starts its cooldown, a success ends
it. -/
def walkEndpoints {Endpoint Link : Type} (force : Bool) (key : Endpoint → CooldownKey)
    (cooldown : Nat) (dial : Endpoint → M Ws Conn (Option Link))
    (onConnected : Endpoint → M Ws Conn Unit) : List Endpoint → M Ws Conn (Option Link)
  | [] => pure none
  | endpoint :: rest => do
      let skipped ← skips force (key endpoint)
      if skipped then walkEndpoints force key cooldown dial onConnected rest
      else do
        let dialed ← dial endpoint
        match dialed with
        | some link => do
            clear (key endpoint)
            onConnected endpoint
            pure (some link)
        | none => do
            set (key endpoint) cooldown
            walkEndpoints force key cooldown dial onConnected rest

namespace Route

/-! ## The Cloudflare rungs -/

/-- The domain of the spare connection: the one that just answered, or the next
in the rotation. -/
def spareDomain (route : Route) (tier : CfTier) (domain : String) (rotation : List String) :
    M Ws Conn String :=
  if route.config.cfBalance then do
    let first ← balanceOffset rotation true tier
    pure (((domainOrder rotation first).head?).getD domain)
  else pure domain

/-- The connection the pool should reopen, off the one that just worked. -/
def cfTarget (route : Route) (tier : CfTier) (dst domain : String) (rotation : List String) :
    M Ws Conn CfTarget := do
  let domain ← route.spareDomain tier domain rotation
  pure
    { tier
      dc := route.dc
      isMedia := route.isMedia
      dst
      domain
      skipTlsVerify := route.config.skipTlsVerify
      connectTimeout := route.config.cfConnectTimeout
      disableTls := route.config.cfDisableTls }

/-- `connect_cf_worker_ws_for_dc_with_outbound_opts`. -/
def connectCfWorker (route : Route) (dst workerDomain : String) : M Ws Conn (Option Ws) := do
  let result ← request
    (.connectCf workerDomain (cfWorkerPath dst route.dc route.isMedia) false
      route.config.skipTlsVerify route.config.cfConnectTimeout route.config.cfDisableTls
      route.config.cfFailCooldown)
  match result with
  | .connected ws => pure (some ws)
  | .redirect _ | .failed _ | .timedOut | .connectTimedOut _ => pure none

def prefetchWorker (route : Route) (dst workerDomain : String) : M Ws Conn Unit := do
  let target ← route.cfTarget .worker dst workerDomain route.config.cfWorkerDomains
  request (.cfPrefetch target)

/-- The Worker tunnels in rotation order; they always lead to the built-in
address of the data centre where there is one. -/
def cfWorker (route : Route) (dst : String) (force : Bool) : M Ws Conn (Option Ws) :=
  if route.config.cfWorkerDomains = [] then pure none
  else do
    let dst := route.fallbackIp.getD dst
    let pooled ← request (.cfGet .worker route.dc route.isMedia)
    match pooled with
    | some (ws, _) => pure (some ws)
    | none => do
        let first ← balanceOffset route.config.cfWorkerDomains route.config.cfBalance .worker
        walkEndpoints force .cfWorker route.config.cfFailCooldown (route.connectCfWorker dst)
          (route.prefetchWorker dst) (domainOrder route.config.cfWorkerDomains first)

/-- The loop of `connect_cf_ws_for_dc_with_outbound_ordered`. -/
def connectCfRecords (route : Route) (attempts : CfAttempts) (allRedirects : Bool) :
    M Ws Conn (Option Ws × Option String × Bool) :=
  match hnext : attempts.nextDomain with
  | (none, _) => pure (none, none, allRedirects)
  | (some record, next) => do
      let result ← request
        (.connectCf record "/apiws" true route.config.skipTlsVerify
          route.config.cfConnectTimeout route.config.cfDisableTls route.config.cfFailCooldown)
      match result with
      | .connected ws => pure (some ws, some record, false)
      | .redirect _ => route.connectCfRecords next allRedirects
      | .failed _ => route.connectCfRecords next false
      | .timedOut | .connectTimedOut _ => route.connectCfRecords next.noteTimedOut false
termination_by attempts.remaining
decreasing_by
  · exact CfAttempts.nextDomain_remaining hnext
  · exact CfAttempts.nextDomain_remaining hnext
  · exact Nat.lt_of_le_of_lt (CfAttempts.noteTimedOut_remaining next)
      (CfAttempts.nextDomain_remaining hnext)

/-- The Cloudflare proxy domains in rotation order, without any cooldown. -/
def cfProxy (route : Route) : M Ws Conn (Option Ws) :=
  if route.config.cfDomains = [] then pure none
  else do
    let firstDomain ← balanceOffset route.config.cfDomains route.config.cfBalance .proxy
    let pooled ← request (.cfGet .proxy route.dc route.isMedia)
    match pooled with
    | some (ws, _) => pure (some ws)
    | none => do
        let (ws, domain, _) ← route.connectCfRecords
          (CfAttempts.withOffset route.dc route.config.cfDomains firstDomain) true
        match ws, domain with
        -- The record that answered, not the domain it was made from, names the spare.
        | some ws, some domain => do
            let target ← route.cfTarget .proxy "" domain route.config.cfDomains
            request (.cfPrefetch target)
            pure (some ws)
        | ws, _ => pure ws

/-! ## The upstream proxies -/

/-- The upstream MTProto proxies in the order they are listed. -/
def upstreamProxies (route : Route) (force : Bool) : M Ws Conn (Option Conn) :=
  walkEndpoints force (fun proxy => .upstream (upstreamKey proxy))
    route.config.upstreamFailCooldown
    (fun proxy => request
      (.connectMtproto proxy route.dcIdx route.proto route.config.upstreamConnectTimeout))
    (fun _ => pure ()) route.config.mtprotoProxies

/-! ## Ladders -/

def hasFallback (route : Route) : Bool :=
  !route.config.cfWorkerDomains.isEmpty || !route.config.cfDomains.isEmpty ||
    !route.config.mtprotoProxies.isEmpty

/-- Worker tunnel first, then the Cloudflare proxy. -/
def cfTiers (route : Route) (dst : String) : M Ws Conn (Option (Upstream Ws Conn)) := do
  let tunnel ← route.cfWorker dst false
  match tunnel with
  | some ws => pure (some (.ws ws .tunnel))
  | none => do
      let ws ← route.cfProxy
      pure (ws.map fun ws => .ws ws .packets)

def fallbackChain (route : Route) (dst : String) : M Ws Conn (Option (Upstream Ws Conn)) := do
  let upstream ← route.cfTiers dst
  match upstream with
  | some upstream => pure (some upstream)
  | none => do
      let conn ← route.upstreamProxies false
      pure (conn.map .mtproto)

def tcpFallback (dst : String) : Upstream Ws Conn := .tcp dst

/-- Raw TCP, preferably to the built-in address. -/
def tcpLastResort (route : Route) (targetIp : String) : Upstream Ws Conn :=
  tcpFallback (route.fallbackIp.getD targetIp)

/-- `tier_attemptable_after`, on the tiers that are left. -/
def tierAttemptableAfter (route : Route) (later : List UpstreamTier)
    (targetIp : Option String) : Bool :=
  later.any fun tier =>
    match tier with
    | .ws => targetIp.isSome
    | .cfworker => !route.config.cfWorkerDomains.isEmpty
    | .cfproxy => !route.config.cfDomains.isEmpty
    | .mtproto => !route.config.mtprotoProxies.isEmpty
    | .tcp => targetIp.isSome || route.fallbackIp.isSome

/-- One rung of a pinned ladder; `none` moves on to the next. -/
def pinnedTier (route : Route) (targetIp : Option String) (lastResort : Bool) :
    UpstreamTier → M Ws Conn (Option (Upstream Ws Conn))
  | .ws =>
      match targetIp with
      | none => pure none
      | some targetIp => route.directWsTier targetIp
  | .cfworker =>
      match route.fallbackIp.or targetIp with
      | none => pure none
      | some dst => do
          let ws ← route.cfWorker dst lastResort
          pure (ws.map fun ws => .ws ws .tunnel)
  | .cfproxy => do
      let ws ← route.cfProxy
      pure (ws.map fun ws => .ws ws .packets)
  | .mtproto => do
      let conn ← route.upstreamProxies lastResort
      pure (conn.map .mtproto)
  | .tcp =>
      match route.fallbackIp.or targetIp with
      | none => pure none
      | some dst => pure (some (tcpFallback dst))

/-- The tier order that the user pinned, instead of the default ladder. -/
def pinnedLadder (route : Route) (targetIp : Option String) :
    List UpstreamTier → M Ws Conn (Option (Upstream Ws Conn))
  | [] => pure none
  | tier :: later => do
      let lastResort := !route.tierAttemptableAfter later targetIp
      let upstream ← route.pinnedTier targetIp lastResort tier
      match upstream with
      | some upstream => pure (some upstream)
      | none => route.pinnedLadder targetIp later

/-- `select_upstream` without a pin. -/
def defaultLadder (route : Route) : Option String → M Ws Conn (Option (Upstream Ws Conn))
  | none =>
      match route.fallbackIp with
      | none => pure none
      | some fallback => do
          let upstream ← route.fallbackChain fallback
          pure (some (upstream.getD (tcpFallback fallback)))
  | some targetIp => do
      let cooling ← active (.ip targetIp)
      if cooling && route.hasFallback then do
        let upstream ← route.fallbackChain targetIp
        match upstream with
        | some upstream => pure (some upstream)
        | none => do
            let direct ← route.directWsTier targetIp
            pure (some (direct.getD (route.tcpLastResort targetIp)))
      else do
        let direct ← route.directWsTier targetIp
        match direct with
        | some upstream => pure (some upstream)
        | none => do
            let upstream ← route.fallbackChain targetIp
            pure (some (upstream.getD (route.tcpLastResort targetIp)))

/-- The upstream to bridge, or nothing when the connection cannot be routed. -/
def selectUpstream (route : Route) (targetIp : Option String) :
    M Ws Conn (Option (Upstream Ws Conn)) :=
  match route.config.forcedUpstreams route.isMedia with
  | some tiers => route.pinnedLadder targetIp tiers
  | none => route.defaultLadder targetIp

end Route

end TgWsProxy.Routing
