import TgWsProxy.Pool.Budget
import TgWsProxy.Pool.Settings
import TgWsProxy.Routing.Blacklist
import TgWsProxy.Transport.EdgeWalk
import TgWsProxy.Transport.Requests

/-!
# The transport policy

Clients, refill tasks and the warm-up all open connections of their own, and each of
them takes its settings from somewhere else: the configuration, the arguments of a call,
a copy in a pool entry, or the shared `Runtime`. In every state of the process, each
dial that any of them can make goes where the configuration says, over the transport it
says.
-/

namespace TgWsProxy.Transport

open Foundation.Effect Foundation.Transition Foundation.Machine Foundation.Concurrent
open TgWsProxy.Cloudflare TgWsProxy.Pool TgWsProxy.Routing
open Foundation.Effect.Program (Guards Only Reaches)

/-! ## The runtime -/

/-- The configuration with the settings that only the transport reads. -/
structure Settings (Ip : Type) where
  config : Config
  cfIps : List Ip
  outbound : OutboundConnector

structure Runtime (Ip : Type) where
  outbound : OutboundConnector
  cfIps : List Ip
  cfFailCooldown : Nat
  frontingDomain : Option String

namespace Runtime

variable {Ip : Type}

def new (outbound : OutboundConnector) : Runtime Ip where
  outbound := outbound
  cfIps := []
  cfFailCooldown := 60
  frontingDomain := none

def withCfIps (runtime : Runtime Ip) (ips : List Ip) : Runtime Ip := { runtime with cfIps := ips }

def withCfFailCooldown (runtime : Runtime Ip) (cooldown : Nat) : Runtime Ip :=
  { runtime with cfFailCooldown := cooldown }

def withFronting (runtime : Runtime Ip) (domain : Option String) : Runtime Ip :=
  { runtime with frontingDomain := domain }

end Runtime

/-- The runtime that `run_with_listen` builds. -/
def Settings.runtime {Ip : Type} (settings : Settings Ip) : Runtime Ip :=
  (((Runtime.new settings.outbound).withCfIps settings.cfIps).withCfFailCooldown
    settings.config.cfFailCooldown).withFronting settings.config.frontingDomain

/-! ## Background dials -/

section Background

variable {Ip Ws Conn : Type} [ToString Ip]

/-- One of the attempts that `connect_batch` makes side by side. -/
def connectBatch (runtime : Runtime Ip) (ip : String) (key : PoolKey) (skipTls : Bool) :
    M Ws Conn (WsAttempt Ws) :=
  connectWsForDc ip key.1 key.2 skipTls 8 runtime.frontingDomain

def Runtime.cfOpts (runtime : Runtime Ip) (disableTls : Bool) : CfDialOpts Ip where
  cfIps := runtime.cfIps
  disableTls := disableTls
  failCooldown := runtime.cfFailCooldown

/-- The stream of a dial that connected. -/
def connected? : Option (WsConnectResult Ws) → Option Ws
  | some (.connected ws) => some ws
  | _ => none

/-- The path of a tier, and whether its request names the binary subprotocol. -/
def cfRequest (target : CfTarget) : String × Bool :=
  match target.tier with
  | .worker => (cfWorkerPath target.dst target.dc target.isMedia, false)
  | .proxy => ("/apiws", true)

def cfConnectOne (runtime : Runtime Ip) (target : CfTarget) : EdgeM Ip Ws (Option Ws) := do
  let (path, requestBinarySubprotocol) := cfRequest target
  let result ← connectCfWithPath target.domain path requestBinarySubprotocol target.skipTlsVerify
    target.connectTimeout runtime.outbound (runtime.cfOpts target.disableTls)
  pure (connected? result)

end Background

/-! ## The process -/

/-- Clients, the pool, and what the refill tasks of the direct map were told about
certificates: at most one task holds a bucket, so the bucket names it. -/
structure Process (Ws Conn : Type) where
  crowd : Crowd (sig Ws Conn) Cooldowns Client (Option (Upstream Ws Conn))
  pool : WsPool
  refillSkips : PoolKey → Bool

inductive ProcessLabel (Ws Conn : Type)
  | client (label : Label (sig Ws Conn) Client)
  /-- The direct map moves; `caller` is the client whose `get` it is, if it is one. -/
  | direct (caller : Nat) (label : DirectLabel)
  | cloudflare (label : CfLabel)

section Process

variable {Ws Conn : Type}

/-- The `skip_tls_verify` of a client that stands in the given call of `get`. -/
def callSkip? (process : Process Ws Conn) (caller : Nat) (key : PoolKey) (targetIp : String)
    (allowRefill : Bool) : Option Bool :=
  (process.crowd.threads[caller]?).bind fun thread =>
    match thread.rest with
    | .call (.poolGet dc isMedia ip skipTlsVerify allow) _ =>
        if (dc, isMedia) = key ∧ ip = targetIp ∧ allow = allowRefill then some skipTlsVerify
        else none
    | _ => none

def setDirect (process : Process Ws Conn) (direct : DirectPool) : Process Ws Conn :=
  { process with pool := { process.pool with direct } }

/-- `schedule_refill` for the call of a client, who told it whether to skip. -/
def scheduleFor (config : Config) (process : Process Ws Conn) (caller index : Nat) :
    Option (Process Ws Conn) :=
  (process.pool.direct.scheduling[index]?).bind fun (key, targetIp) =>
    (callSkip? process caller key targetIp true).bind fun skipTls =>
      (directStep config process.pool.direct (.schedule index)).map fun direct =>
        -- A bucket that is reserved, or a pool of size zero, spawns no task.
        if config.poolSize = 0 ∨ process.pool.direct.refilling key = true then
          setDirect process direct
        else
          { setDirect process direct with
            refillSkips := fun other =>
              if other = key then skipTls else process.refillSkips other }

def processStep (config : Config) (width : PointerWidth) (process : Process Ws Conn) :
    ProcessLabel Ws Conn → Option (Process Ws Conn)
  | .client label =>
      ((clients Ws Conn config).step process.crowd label).map fun crowd => { process with crowd }
  | .direct caller (.get key targetIp allowRefill now closed) =>
      (callSkip? process caller key targetIp allowRefill).bind fun _ =>
        (directStep config process.pool.direct (.get key targetIp allowRefill now closed)).map
          (setDirect process)
  | .direct caller (.schedule index) => scheduleFor config process caller index
  | .direct _ label => (directStep config process.pool.direct label).map (setDirect process)
  | .cloudflare label =>
      (cfStep config width process.pool.cf label).map fun cf =>
        { process with pool := { process.pool with cf } }

def processSystem (Ws Conn : Type) (config : Config) (width : PointerWidth) :
    System (Process Ws Conn) (ProcessLabel Ws Conn) where
  start :=
    { crowd := (clients Ws Conn config).system.start
      pool := (poolSystem config width).start
      refillSkips := fun _ => false }
  step := processStep config width

end Process

/-! ## Who dials -/

/-- What a dial is for. -/
inductive Purpose
  | direct (key : PoolKey)
  | cloudflare (hostname : String)

section Dials

variable {Ip Ws Conn : Type} [ToString Ip] (settings : Settings Ip)

/-- The dials that the tasks of a process can be about to make. -/
inductive Dials (process : Process Ws Conn) : Purpose → WsDial → Prop
  /-- A client in `connect_ws_for_dc_with_outbound`. -/
  | client {thread : Thread (sig Ws Conn) Client (Option (Upstream Ws Conn))}
      {ip domain : String} {skipTlsVerify : Bool} {timeout : Nat} {sniOverride : Option String}
      {next : WsConnectResult Ws → M Ws Conn (Option (Upstream Ws Conn))}
      (hthread : thread ∈ process.crowd.threads)
      (hcall : thread.rest = .call (.connectWs ip domain skipTlsVerify timeout sniOverride) next) :
      Dials process (.direct (thread.job.dc, thread.job.isMedia))
        (wsMode ip domain skipTlsVerify timeout sniOverride false)
  /-- A client in `connect_cf_with_path`. -/
  | clientCf {thread : Thread (sig Ws Conn) Client (Option (Upstream Ws Conn))}
      {domain path : String} {binary skipTlsVerify disableTls : Bool} {timeout failCooldown : Nat}
      {next : WsConnectResult Ws → M Ws Conn (Option (Upstream Ws Conn))}
      {trace : Trace (edgeSig Ip Ws)} {dial : WsDial}
      {rest : WsConnectResult Ws → EdgeM Ip Ws (Option (WsConnectResult Ws))}
      (hthread : thread ∈ process.crowd.threads)
      (hcall : thread.rest = .call
        (.connectCf domain path binary skipTlsVerify timeout disableTls failCooldown) next)
      (hwalk : Reaches (connectCfWithPath domain path binary skipTlsVerify timeout
          settings.runtime.outbound ⟨settings.runtime.cfIps, disableTls, failCooldown⟩) trace
        (.call (.dial dial) rest)) :
      Dials process (.cloudflare domain) dial
  /-- A refill task of the direct map. -/
  | refill {task : RefillTask} {needed : Nat} {ip domain : String} {skipTlsVerify : Bool}
      {timeout : Nat} {sniOverride : Option String} {trace : Trace (sig Ws Conn)}
      {next : WsConnectResult Ws → M Ws Conn (WsAttempt Ws)}
      (htask : task ∈ process.pool.direct.refills) (hphase : task.phase = .dialing needed)
      (hbatch : Reaches (connectBatch settings.runtime task.targetIp task.key
          (process.refillSkips task.key)) trace
        (.call (.connectWs ip domain skipTlsVerify timeout sniOverride) next)) :
      Dials process (.direct task.key) (wsMode ip domain skipTlsVerify timeout sniOverride false)
  | warmup {task : WarmupTask} {ip domain : String} {skipTlsVerify : Bool}
      {timeout : Nat} {sniOverride : Option String} {trace : Trace (sig Ws Conn)}
      {next : WsConnectResult Ws → M Ws Conn (WsAttempt Ws)}
      (htask : task ∈ process.pool.direct.warmups) (hphase : task.phase = .dialing)
      (hbatch : Reaches (connectBatch settings.runtime task.ip task.key
          settings.config.skipTlsVerify) trace
        (.call (.connectWs ip domain skipTlsVerify timeout sniOverride) next)) :
      Dials process (.direct task.key) (wsMode ip domain skipTlsVerify timeout sniOverride false)
  /-- A refill task of the Cloudflare map. -/
  | cfRefill {task : CfRefillTask} {trace : Trace (edgeSig Ip Ws)} {dial : WsDial}
      {rest : WsConnectResult Ws → EdgeM Ip Ws (Option Ws)}
      (htask : task ∈ process.pool.cf.refills) (hphase : task.phase = .dialing)
      (hwalk : Reaches (cfConnectOne settings.runtime task.target) trace
        (.call (.dial dial) rest)) :
      Dials process (.cloudflare task.target.domain) dial

/-- What a dial may do on the network. -/
def Obeys : Purpose → NetOp → Prop
  | .direct key, .connect host port _ =>
      settings.config.dcTargetIp key.1 = some host ∧ port = 443
  | .direct key, .upgrade security request _ =>
      request.host ∈ wsDomains key.1 key.2 ∧
        ∃ sni verify, security = .tls sni verify ∧
          sni = settings.config.frontingDomain.getD request.host ∧
          (verify = false ↔
            settings.config.frontingDomain.isSome = true ∨ settings.config.skipTlsVerify = true)
  | .cloudflare hostname, .connect host port _ =>
      port = (if settings.config.cfDisableTls then 80 else 443) ∧
        (settings.cfIps = [] → host = hostname) ∧
        (settings.cfIps ≠ [] → ∃ ip ∈ settings.cfIps, host = toString ip)
  | .cloudflare hostname, .upgrade security request _ =>
      request.host = hostname ∧
        security = (if settings.config.cfDisableTls then .plaintext
          else .tls hostname !settings.config.skipTlsVerify)
  | _, .clientRequest _ => True

/-- A dial for Telegram's own endpoint, with the settings it should have. -/
structure DirectDial (key : PoolKey) (dial : WsDial) : Prop where
  address : settings.config.dcTargetIp key.1 = some dial.ip
  domain : dial.domain ∈ wsDomains key.1 key.2
  skip : dial.skipTlsVerify = settings.config.skipTlsVerify
  sni : dial.sniOverride = settings.config.frontingDomain
  tls : dial.disableTls = false

/-- A dial for a Cloudflare name, with the settings it should have. -/
structure CfHostDial (hostname : String) (dial : WsDial) : Prop where
  address : (settings.cfIps = [] → dial.ip = hostname) ∧
    (settings.cfIps ≠ [] → ∃ ip ∈ settings.cfIps, dial.ip = toString ip)
  domain : dial.domain = hostname
  skip : dial.skipTlsVerify = settings.config.skipTlsVerify
  sni : dial.sniOverride = none
  tls : dial.disableTls = settings.config.cfDisableTls

def Proper : Purpose → WsDial → Prop
  | .direct key, dial => DirectDial settings key dial
  | .cloudflare hostname, dial => CfHostDial settings hostname dial

/-- What `connect_ws_with_path` may ask the network for: the connect, the request, and once
the library has read a host in the URL, the upgrade to that host. -/
def Asked (dial : WsDial) (done : Trace (netSig Ws)) (op : NetOp) : Prop :=
  op = .connect dial.ip (wsPort dial.disableTls) dial.timeout ∨ op = .clientRequest dial.url ∨
    ∃ host, ⟨.clientRequest dial.url, .ok host⟩ ∈ done ∧
      op = .upgrade (dial.security (dial.request host)) (dial.request host) dial.timeout

theorem connectWsWithPath_guards (dial : WsDial) :
    Guards (Asked dial) (fun _ _ => True) []
      (connectWsWithPath dial : Program (netSig Ws) (WsConnectResult Ws)) := by
  refine ⟨.inl rfl, fun tcp => ?_⟩
  cases tcp with
  | error error =>
      change Guards _ _ _ (ite _ _ _)
      split <;> exact Guards.pure trivial
  | ok =>
      refine ⟨.inr (.inl rfl), fun client => ?_⟩
      cases client with
      | error text => exact Guards.pure trivial
      | ok host =>
          refine ⟨.inr (.inr ⟨host, by simp, rfl⟩), fun result => ?_⟩
          rcases result with _ | ⟨ws, status⟩ | status | text
          · exact Guards.pure trivial
          · change Guards _ _ _ (ite _ _ (ite _ _ _))
            split
            · exact Guards.pure trivial
            · split <;> exact Guards.pure trivial
          · change Guards _ _ _ (ite _ _ _)
            split <;> exact Guards.pure trivial
          · exact Guards.pure trivial

/-- The host that the WebSocket library has read in the URL of the dial is the name that was
put there. -/
def HostIsDomain (dial : WsDial) (trace : Trace (netSig Ws)) : Prop :=
  ∀ host, ⟨.clientRequest dial.url, .ok host⟩ ∈ trace → host = dial.domain

omit [ToString Ip] in
theorem DirectDial.security {key : PoolKey} {dial : WsDial}
    (hdial : DirectDial settings key dial) :
    ∃ sni verify, dial.security (dial.request dial.domain) = .tls sni verify ∧
      sni = settings.config.frontingDomain.getD dial.domain ∧
      (verify = false ↔
        settings.config.frontingDomain.isSome = true ∨ settings.config.skipTlsVerify = true) := by
  unfold WsDial.security
  rw [hdial.tls, hdial.sni]
  cases settings.config.frontingDomain with
  | some sni => exact ⟨sni, false, rfl, rfl, fun _ => .inl rfl, fun _ => rfl⟩
  | none =>
      refine ⟨dial.domain, !dial.skipTlsVerify, rfl, rfl, ?_⟩
      rw [hdial.skip, Bool.not_eq_false']
      exact ⟨.inr, fun hskip => hskip.resolve_left (by simp)⟩

/-- A dial with the right settings does the right things. -/
theorem Proper.obeys {purpose : Purpose} {dial : WsDial} (hproper : Proper settings purpose dial)
    {trace : Trace (netSig Ws)} (hhost : HostIsDomain dial trace) {op : NetOp}
    (hasked : Asked dial trace op) : Obeys settings purpose op := by
  obtain rfl | rfl | ⟨host, hread, rfl⟩ := hasked
  · cases purpose with
    | direct key => exact ⟨hproper.address, by rw [hproper.tls]; rfl⟩
    | cloudflare hostname => exact ⟨by rw [hproper.tls]; rfl, hproper.address⟩
  · cases purpose <;> trivial
  · cases hhost host hread
    cases purpose with
    | direct key => exact ⟨hproper.domain, hproper.security⟩
    | cloudflare hostname =>
        refine ⟨hproper.domain, ?_⟩
        have hname : (dial.request dial.domain).host = hostname := hproper.domain
        unfold WsDial.security
        rw [hproper.tls, hproper.sni, hproper.skip, hname]

/-! ## Dials of the walk along the edges -/

/-- A walk dials for its own name only. -/
def EdgeProper (hostname : String) : EdgeOp Ip → Prop
  | .dial dial => CfHostDial settings hostname dial
  | .fetchAdd | .entries _ | .now | .insert _ _ _ | .remove _ _ => True

theorem walkEdges_only {dial : WsDial} {hostname : String} (outbound : OutboundConnector)
    (failCooldown : Nat) {ips : List Ip}
    (hips : ∀ ip ∈ ips, CfHostDial settings hostname { dial with ip := toString ip })
    (lastNonRedirect : Option (WsConnectResult Ws)) (lastRedirect : Option Nat) :
    Only (EdgeProper settings hostname)
      (walkEdges dial outbound failCooldown ips lastNonRedirect lastRedirect) := by
  induction ips generalizing lastNonRedirect lastRedirect with
  | nil => exact .pure _
  | cons ip rest ih =>
      obtain ⟨hip, hrest⟩ := List.forall_mem_cons.mp hips
      refine .bind (.perform hip) fun result => ?_
      cases result with
      | connected ws => exact .bind (.perform trivial) fun _ => .pure _
      | redirect code => exact .bind (.perform trivial) fun _ => ih hrest _ _
      | failed reason => exact .bind (.perform trivial) fun _ => ih hrest _ _
      | timedOut => exact .bind (.perform trivial) fun _ => ih hrest _ _
      | connectTimedOut reason =>
          refine .bind ?_ fun _ => ih hrest _ _
          split
          next => exact .bind (.perform trivial) fun _ => .perform trivial
          next => exact .pure _

theorem connectCfWithPath_only (domain path : String) (binary : Bool) (timeout failCooldown : Nat) :
    Only (EdgeProper settings domain)
      (connectCfWithPath domain path binary settings.config.skipTlsVerify timeout
        settings.runtime.outbound
        ⟨settings.runtime.cfIps, settings.config.cfDisableTls, failCooldown⟩ :
          EdgeM Ip Ws (Option (WsConnectResult Ws))) := by
  unfold connectCfWithPath
  simp only
  split
  next hnone =>
    refine .bind (.perform ?_) fun _ => .pure _
    exact ⟨⟨fun _ => rfl, fun hsome => (hsome hnone).elim⟩, rfl, rfl, rfl, rfl⟩
  next hsome =>
    have hstart : Only (EdgeProper settings domain)
        (cfIpStart settings.runtime.cfIps : EdgeM Ip Ws Nat) := by
      unfold cfIpStart
      split
      next => exact .pure _
      next => exact .bind (.perform trivial) fun _ => .pure _
    refine .bind hstart fun first => ?_
    refine Only.bind_of_ensures ?_ (cfIpAttempts_mem settings.runtime.cfIps first _ _) ?_
    · exact .bind (.perform trivial) fun _ => .bind (.perform trivial) fun _ => .pure _
    · intro attempts hattempts
      apply walkEdges_only
      intro ip hip
      exact ⟨⟨fun hnone => (hsome hnone).elim, fun _ => ⟨ip, hattempts ip hip, rfl⟩⟩, rfl, rfl, rfl,
        rfl⟩

theorem cfConnectOne_only {target : CfTarget} (hcopies : target.Copies settings.config) :
    Only (EdgeProper settings target.domain)
      (cfConnectOne settings.runtime target : EdgeM Ip Ws (Option Ws)) := by
  obtain ⟨hskip, htls⟩ := hcopies
  unfold cfConnectOne
  rw [hskip, htls]
  exact .bind (connectCfWithPath_only settings _ _ _ _ _) fun _ => .pure _

omit [ToString Ip] in
/-- A batch dials the hostnames of its data centre at the address it was given. -/
theorem connectBatch_only (ip : String) (key : PoolKey) (skipTls : Bool) :
    Only (Op.Configured { settings.config with skipTlsVerify := skipTls } key (some ip))
      (connectBatch settings.runtime ip key skipTls : M Ws Conn (WsAttempt Ws)) := by
  apply connectWsDomains_only
  intro domain hdomain
  exact ⟨rfl, hdomain, rfl, rfl⟩

/-! ## The process over whole runs -/

/-- The settings in the state are those of the configuration. -/
structure Uniform (process : Process Ws Conn) : Prop where
  standing : (clients Ws Conn settings.config).Standing process.crowd
  addresses : ∀ pair ∈ process.pool.direct.addresses,
    settings.config.dcTargetIp pair.1.1 = some pair.2
  skips : ∀ task ∈ process.pool.direct.refills,
    process.refillSkips task.key = settings.config.skipTlsVerify
  copies : process.pool.cf.Copies settings.config

namespace Uniform

variable {settings} {process next : Process Ws Conn} {width : PointerWidth}

omit [ToString Ip] in
/-- What a client is about to call. -/
theorem configured (huniform : Uniform settings process)
    {thread : Thread (sig Ws Conn) Client (Option (Upstream Ws Conn))}
    (hthread : thread ∈ process.crowd.threads) {op : Op}
    {rest : Reply Ws Conn op → M Ws Conn (Option (Upstream Ws Conn))}
    (hcall : thread.rest = .call op rest) :
    op.Configured settings.config (thread.job.dc, thread.job.isMedia)
      (settings.config.dcTargetIp thread.job.dc) := by
  have hreaches := huniform.standing thread hthread
  rw [hcall] at hreaches
  exact (selectUpstream_configured (thread.job.route settings.config) _).of_reaches hreaches

omit [ToString Ip] in
theorem of_callSkip (huniform : Uniform settings process) {caller : Nat} {key : PoolKey}
    {targetIp : String} {allowRefill skipTls : Bool}
    (hcall : callSkip? process caller key targetIp allowRefill = some skipTls) :
    settings.config.dcTargetIp key.1 = some targetIp ∧
      skipTls = settings.config.skipTlsVerify := by
  obtain ⟨thread, hthread, hskips⟩ := Option.bind_eq_some_iff.mp hcall
  split at hskips
  next dc isMedia ip skipTlsVerify allow rest hrest =>
    split at hskips
    next hsame =>
      obtain ⟨rfl, rfl, -⟩ := hsame
      cases hskips
      obtain ⟨hkey, haddress, hskip⟩ :=
        huniform.configured (List.mem_of_getElem? hthread) hrest
      exact ⟨(congrArg Prod.fst hkey) ▸ haddress, hskip⟩
    next => cases hskips
  next => cases hskips

omit [ToString Ip] in
theorem start : Uniform settings (processSystem Ws Conn settings.config width).start where
  standing _ hmem := (List.not_mem_nil hmem).elim
  addresses _ hpair := dcTargetIp_of_mem_start hpair
  skips _ hmem := (List.not_mem_nil hmem).elim
  copies := .start

omit [ToString Ip] in
/-- A move of the direct map, with what its refill tasks are told. -/
theorem setDirect (huniform : Uniform settings process) {label : DirectLabel}
    {direct : DirectPool} {refillSkips : PoolKey → Bool}
    (hmoves : DirectMoves settings.config process.pool.direct label direct)
    (hget : ∀ key targetIp allowRefill now closed,
      label = .get key targetIp allowRefill now closed →
      settings.config.dcTargetIp key.1 = some targetIp)
    (hskips : ∀ task ∈ direct.refills, refillSkips task.key = settings.config.skipTlsVerify) :
    Uniform settings { Transport.setDirect process direct with refillSkips } where
  standing := huniform.standing
  addresses pair hpair := by
    rcases mem_addresses_of_moves hmoves hpair with hpair | ⟨now, closed, rfl⟩
    · exact huniform.addresses pair hpair
    · exact hget _ _ _ _ _ rfl
  skips := hskips
  copies := huniform.copies

omit [ToString Ip] in
/-- Without a new task, nothing new has been told. -/
theorem skips_of_moves (huniform : Uniform settings process) {label : DirectLabel}
    {direct : DirectPool} (hmoves : DirectMoves settings.config process.pool.direct label direct)
    (hlabel : ∀ index, label ≠ .schedule index) :
    ∀ task ∈ direct.refills, process.refillSkips task.key = settings.config.skipTlsVerify := by
  intro task htask
  rcases refill_of_moves hmoves htask with ⟨earlier, hearlier, hsame⟩ | ⟨index, rfl, -⟩
  · obtain ⟨hkey, -⟩ := Prod.mk.inj hsame
    rw [← hkey]
    exact huniform.skips earlier hearlier
  · exact (hlabel index rfl).elim

omit [ToString Ip] in
theorem scheduleFor (huniform : Uniform settings process) {caller index : Nat}
    (hstep : scheduleFor settings.config process caller index = some next) :
    Uniform settings next := by
  obtain ⟨⟨key, targetIp⟩, hpending, hstep⟩ := Option.bind_eq_some_iff.mp hstep
  obtain ⟨skipTls, hcall, hstep⟩ := Option.bind_eq_some_iff.mp hstep
  obtain ⟨direct, hdirect, rfl⟩ := Option.map_eq_some_iff.mp hstep
  have hskip := (huniform.of_callSkip hcall).2
  have hmoves := directStep_moves hdirect
  have hother : ∀ key targetIp allowRefill now closed,
      DirectLabel.schedule index = .get key targetIp allowRefill now closed →
      settings.config.dcTargetIp key.1 = some targetIp := by
    rintro _ _ _ _ _ ⟨⟩
  split
  next hrefused =>
    refine huniform.setDirect hmoves hother ?_
    simp only [directStep, hpending] at hdirect
    cases hdirect
    simp only [scheduleRefill, hrefused, if_true]
    exact huniform.skips
  next =>
    refine huniform.setDirect hmoves hother ?_
    intro task htask
    split
    next => exact hskip
    next hkey =>
      rcases refill_of_moves hmoves htask with ⟨earlier, hearlier, hsame⟩ | ⟨_, ⟨⟩, htaken⟩
      · obtain ⟨hearlierKey, -⟩ := Prod.mk.inj hsame
        rw [← hearlierKey]
        exact huniform.skips earlier hearlier
      · rw [hpending] at htaken
        cases htaken
        exact (hkey rfl).elim

omit [ToString Ip] in
theorem step (huniform : Uniform settings process) {label : ProcessLabel Ws Conn}
    (hstep : processStep settings.config width process label = some next) :
    Uniform settings next := by
  cases label with
  | client label =>
      obtain ⟨crowd, hcrowd, rfl⟩ := Option.map_eq_some_iff.mp hstep
      exact ⟨huniform.standing.step hcrowd, huniform.addresses, huniform.skips, huniform.copies⟩
  | cloudflare label =>
      obtain ⟨cf, hcf, rfl⟩ := Option.map_eq_some_iff.mp hstep
      exact ⟨huniform.standing, huniform.addresses, huniform.skips,
        huniform.copies.step (cfStep_moves hcf)⟩
  | direct caller label =>
      cases label with
      | get key targetIp allowRefill now closed =>
          obtain ⟨skipTls, hcall, hstep⟩ := Option.bind_eq_some_iff.mp hstep
          obtain ⟨direct, hdirect, rfl⟩ := Option.map_eq_some_iff.mp hstep
          have hmoves := directStep_moves hdirect
          refine huniform.setDirect hmoves ?_ (huniform.skips_of_moves hmoves (by rintro _ ⟨⟩))
          rintro _ _ _ _ _ ⟨⟩
          exact (huniform.of_callSkip hcall).1
      | schedule index => exact huniform.scheduleFor hstep
      | refillMeasure | refillDial | refillStore | refillRelease | warmupStart | warmupDial
      | warmupStore =>
          obtain ⟨direct, hdirect, rfl⟩ := Option.map_eq_some_iff.mp hstep
          have hmoves := directStep_moves hdirect
          exact huniform.setDirect hmoves (by rintro _ _ _ _ _ ⟨⟩)
            (huniform.skips_of_moves hmoves (by rintro _ ⟨⟩))

omit [ToString Ip] in
theorem visits {labels : List (ProcessLabel Ws Conn)}
    (hvisits : (processSystem Ws Conn settings.config width).Visits labels process) :
    Uniform settings process :=
  System.Visits.invariant _ start (fun _ _ _ hstep huniform => huniform.step hstep) hvisits

/-- In such a state every dial has the settings it should have. -/
theorem proper (huniform : Uniform settings process) {purpose : Purpose} {dial : WsDial}
    (hdials : Dials settings process purpose dial) : Proper settings purpose dial := by
  cases hdials with
  | client hthread hcall =>
      obtain ⟨haddress, hdomain, hskip, hsni⟩ := huniform.configured hthread hcall
      exact ⟨haddress, hdomain, hskip, hsni, rfl⟩
  | clientCf hthread hcall hwalk =>
      obtain ⟨rfl, rfl⟩ := huniform.configured hthread hcall
      exact (connectCfWithPath_only settings _ _ _ _ _).of_reaches hwalk
  | @refill task _ _ _ _ _ _ _ _ htask hphase hbatch =>
      have haddress := huniform.addresses (task.key, task.targetIp)
        (DirectPool.mem_addresses.mpr (.inr (.inl ⟨task, htask, rfl⟩)))
      obtain ⟨hip, hdomain, hskip, hsni⟩ := (connectBatch_only settings _ _ _).of_reaches hbatch
      exact ⟨haddress.trans hip, hdomain, hskip.trans (huniform.skips task htask), hsni, rfl⟩
  | @warmup task _ _ _ _ _ _ _ htask hphase hbatch =>
      have haddress := huniform.addresses (task.key, task.ip)
        (DirectPool.mem_addresses.mpr (.inr (.inr ⟨task, htask, rfl⟩)))
      obtain ⟨hip, hdomain, hskip, hsni⟩ := (connectBatch_only settings _ _ _).of_reaches hbatch
      exact ⟨haddress.trans hip, hdomain, hskip, hsni, rfl⟩
  | cfRefill htask hphase hwalk =>
      exact (cfConnectOne_only settings (huniform.copies.refills _ htask)).of_reaches hwalk

end Uniform

/-- Every dial obeys the transport policy, inline and in the background: whatever a
client or a task of the pool can be dialling in a state that some run visits, each call
it makes to the network is one the configuration allows. The `Host` of the upgrade, and
with it the server name, is what the WebSocket library takes from the URL. -/
theorem every_dial_obeys_policy {width : PointerWidth} {labels : List (ProcessLabel Ws Conn)}
    {process : Process Ws Conn}
    (hvisits : (processSystem Ws Conn settings.config width).Visits labels process)
    {purpose : Purpose} {dial : WsDial} (hdials : Dials settings process purpose dial)
    {trace : Trace (netSig Ws)} (hhost : HostIsDomain dial trace) {op : NetOp}
    {next : NetReply Ws op → Program (netSig Ws) (WsConnectResult Ws)}
    (hreaches : Reaches (connectWsWithPath dial) trace (.call op next)) :
    Obeys settings purpose op :=
  Proper.obeys settings ((Uniform.visits hvisits).proper hdials) hhost
    ((connectWsWithPath_guards dial).allowed_of_reaches hreaches)

/-- A fronted data centre with preferred edges. -/
def frontedSettings : Settings Nat where
  config := { dcIp := [(2, "149.154.167.220")], frontingDomain := some "front.example" }
  cfIps := [1, 2]
  outbound := ⟨false, fun _ _ => false⟩

/-- The warm-up has connected and stands before the upgrade. -/
theorem every_dial_obeys_policy_warmup :
    ∃ process, (processSystem Unit Unit frontedSettings.config .bits64).Visits
        [.direct 0 (.warmupStart 0)] process ∧
      ∃ dial, Dials frontedSettings process (.direct (2, false)) dial ∧
        Obeys frontedSettings (.direct (2, false))
          (.upgrade (.tls "front.example" false) (dial.request "kws2.web.telegram.org") 8) := by
  obtain ⟨process, hrun, htask⟩ : ∃ process, (processSystem Unit Unit frontedSettings.config
      .bits64).run [.direct 0 (.warmupStart 0)] = some process ∧
      ⟨(2, false), "149.154.167.220", .dialing⟩ ∈ process.pool.direct.warmups :=
    ⟨_, rfl, List.mem_cons_self⟩
  have hvisits : (processSystem Unit Unit frontedSettings.config .bits64).Visits
      [.direct 0 (.warmupStart 0)] process := ⟨_, [], rfl, hrun⟩
  let dial := wsMode "149.154.167.220" "kws2.web.telegram.org" false 8 (some "front.example") false
  have hdials : Dials frontedSettings process (.direct (2, false)) dial :=
    .warmup htask rfl (.refl _)
  let trace : Trace (netSig Unit) := [⟨.connect dial.ip 443 8, .ok ()⟩,
    ⟨.clientRequest dial.url, .ok dial.domain⟩]
  have hhost : HostIsDomain dial trace := by
    intro host hread
    simpa [trace] using hread
  have hreaches : Reaches (connectWsWithPath dial) trace _ :=
    @Reaches.call (netSig Unit) _ (.connect dial.ip 443 8) _ (.ok ()) _ _
      (@Reaches.call (netSig Unit) _ (.clientRequest dial.url) _ (.ok dial.domain) _ _ (.refl _))
  exact ⟨process, hvisits, dial, hdials,
    every_dial_obeys_policy frontedSettings hvisits hdials hhost hreaches⟩

end Dials

end TgWsProxy.Transport
