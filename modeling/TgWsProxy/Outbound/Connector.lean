import TgWsProxy.Foundation.Attempt
import TgWsProxy.Outbound.Sources

/-!
# Outbound connections

Every connection of the proxy is opened by an `OutboundConnector`, directly or through an
HTTP or SOCKS5 proxy. Which addresses are dialled, which names are resolved here and which
by the proxy, to whom the credentials go, and what the timeout of the caller covers.
-/

namespace TgWsProxy.Outbound

open Foundation Foundation.Effect
open Foundation.Effect.Program (Mirrors Runs)

/-! ## Operations -/

/-- `timed_out` tells a connect to which nobody answered from one that was refused. -/
structure OutboundError where
  reason : String
  timedOut : Bool
  deriving DecidableEq, Repr

structure Auth where
  username : Text
  password : Text
  deriving DecidableEq, Repr

/-- The target of a SOCKS5 request: an address, or a name that the proxy resolves. -/
inductive TargetAddr
  | ip (address : IpAddr) (port : Nat)
  | domain (host : Text) (port : Nat)
  deriving DecidableEq, Repr

inductive Op (Conn : Type)
  /-- `TcpStream::connect`, which resolves a name here. -/
  | tcpConnect (host : Text) (port : Nat)
  | lookupHost (host : Text) (port : Nat)
  /-- The `CONNECT` request on a connection to the proxy. -/
  | httpConnect (conn : Conn) (host : Text) (port : Nat) (auth : Option Auth)
  /-- The connection to a SOCKS5 proxy, and the request on it. -/
  | socks5Connect (proxyHost : Text) (proxyPort : Nat) (target : TargetAddr) (auth : Option Auth)

/-- Nothing is answered when the timeout of the caller comes first. -/
@[reducible] def Reply {Conn : Type} : Op Conn → Type
  | .tcpConnect _ _ | .socks5Connect _ _ _ _ => Option (Except String Conn)
  | .lookupHost _ _ => Option (Except String (List (IpAddr × Nat)))
  | .httpConnect _ _ _ _ => Option (Except String Unit)

abbrev outboundSig (Conn : Type) : Signature := ⟨Op Conn, Reply⟩

abbrev Dial (Conn α : Type) := Program (outboundSig Conn) α

/-- Why the future under the timeout has no value: it was dropped, or it failed. -/
inductive Halt
  | elapsed
  | failed (reason : String)

abbrev Attempt (Conn α : Type) := ExceptT Halt (Program (outboundSig Conn)) α

variable {Conn : Type}

def perform (op : Op Conn) : Dial Conn (Reply op) := @Program.perform (outboundSig Conn) op

section Attempts

variable {α : Type}

def settle : Option (Except String α) → Except Halt α
  | none => .error .elapsed
  | some (.error reason) => .error (.failed reason)
  | some (.ok value) => .ok value

/-- `.await` on one operation. -/
def awaited (program : Dial Conn (Option (Except String α))) : Attempt Conn α :=
  .mk (program >>= fun reply => pure (settle reply))

def relabel (label : String → String) : Except Halt α → Except Halt α
  | .error (.failed reason) => .error (.failed (label reason))
  | .error .elapsed => .error .elapsed
  | .ok value => .ok value

/-- `map_err`. -/
def mapErr (label : String → String) (attempt : Attempt Conn α) : Attempt Conn α :=
  .mk (attempt.run >>= fun result => pure (relabel label result))

end Attempts

/-! ## Proxies -/

def bracketed (host : Text) : Text :=
  if host.contains ':' && host.head? != some '[' then '[' :: (host ++ [']']) else host

def authority (host : Text) (port : Nat) : String :=
  String.ofList (bracketed host) ++ s!":{port}"

namespace ProxyConfig

def scheme (proxy : ProxyConfig) : String :=
  match proxy.kind with
  | .http => "http"
  | .socks5 false => "socks5"
  | .socks5 true => "socks5h"

/-- How the proxy is logged. -/
def summary (proxy : ProxyConfig) : String :=
  if proxy.username.isSome then proxy.scheme ++ "://user:***@" ++ authority proxy.host proxy.port
  else proxy.scheme ++ "://" ++ authority proxy.host proxy.port

/-- What is sent along with a request. -/
def auth (proxy : ProxyConfig) : Option Auth :=
  proxy.username.map fun username => ⟨username, proxy.password.getD []⟩

end ProxyConfig

/-! ## Connecting -/

section Connect

variable (reader : AddressReader)

def connectTcp (host : Text) (port : Nat) : Attempt Conn Conn :=
  mapErr ("TCP connect: " ++ ·) (awaited (perform (.tcpConnect host port)))

def connectHttpProxy (proxy : ProxyConfig) (targetHost : Text) (targetPort : Nat) :
    Attempt Conn Conn := do
  let stream ← connectTcp proxy.host proxy.port
  awaited (perform (.httpConnect stream (bracketed targetHost) targetPort proxy.auth))
  pure stream

def socks5Target (host : Text) (port : Nat) (remoteDns : Bool) : Attempt Conn TargetAddr :=
  if remoteDns then
    match reader.ipAddr host with
    | some ip => pure (.ip ip port)
    | none => pure (.domain host port)
  else do
    let addresses ← mapErr ("SOCKS5 local DNS lookup: " ++ ·)
      (awaited (perform (.lookupHost host port)))
    match addresses.head? with
    | some (ip, port) => pure (.ip ip port)
    | none => throw (.failed "SOCKS5 local DNS lookup returned no addresses")

def connectSocks5Proxy (proxy : ProxyConfig) (targetHost : Text) (targetPort : Nat)
    (remoteDns : Bool) : Attempt Conn Conn := do
  let target ← socks5Target reader targetHost targetPort remoteDns
  awaited (perform (.socks5Connect proxy.host proxy.port target proxy.auth))

def connectViaProxy (proxy : ProxyConfig) (targetHost : Text) (targetPort : Nat) :
    Attempt Conn Conn :=
  match proxy.kind with
  | .http =>
      mapErr (fun reason => "HTTP proxy " ++ proxy.summary ++ ": " ++ reason)
        (connectHttpProxy proxy targetHost targetPort)
  | .socks5 remoteDns =>
      mapErr (fun reason => "SOCKS5 proxy " ++ proxy.summary ++ ": " ++ reason)
        (connectSocks5Proxy reader proxy targetHost targetPort remoteDns)

/-- `tokio::time::timeout` around an attempt, with what is said when the time is up. -/
def within (elapsed : String) (attempt : Attempt Conn Conn) :
    Dial Conn (Except OutboundError Conn) := do
  match ← attempt.run with
  | .ok stream => pure (.ok stream)
  | .error (.failed reason) => pure (.error ⟨reason, false⟩)
  | .error .elapsed => pure (.error ⟨elapsed, true⟩)

def connectDirect (host : Text) (port : Nat) : Dial Conn (Except OutboundError Conn) :=
  within "TCP connect timed out" (connectTcp host port)

namespace OutboundConfig

variable (config : OutboundConfig)

def shouldBypass (targetHost : Text) (targetPort : Nat) : Bool :=
  config.noProxy.any fun matchers => noProxyMatches reader matchers targetHost targetPort

def connectsDirectly (targetHost : Text) (targetPort : Nat) : Bool :=
  config.proxy.isNone || config.shouldBypass reader targetHost targetPort

def connect (targetHost : Text) (targetPort : Nat) : Dial Conn (Except OutboundError Conn) :=
  match config.proxy with
  | none => connectDirect targetHost targetPort
  | some proxy =>
      if config.shouldBypass reader targetHost targetPort then connectDirect targetHost targetPort
      else
        within ("proxy " ++ proxy.summary ++ " handshake timed out")
          (connectViaProxy reader proxy targetHost targetPort)

end OutboundConfig

end Connect

/-! ## What an attempt does -/

/-- The time was up before the answer came. -/
def Elapsed : Event (outboundSig Conn) → Prop
  | ⟨.tcpConnect _ _, reply⟩ | ⟨.socks5Connect _ _ _ _, reply⟩ => reply = none
  | ⟨.lookupHost _ _, reply⟩ => reply = none
  | ⟨.httpConnect _ _ _ _, reply⟩ => reply = none

instance : DecidablePred (Elapsed : Event (outboundSig Conn) → Prop)
  | ⟨.tcpConnect _ _, reply⟩ => inferInstanceAs (Decidable (reply = none))
  | ⟨.lookupHost _ _, reply⟩ => inferInstanceAs (Decidable (reply = none))
  | ⟨.httpConnect _ _ _ _, reply⟩ => inferInstanceAs (Decidable (reply = none))
  | ⟨.socks5Connect _ _ _ _, reply⟩ => inferInstanceAs (Decidable (reply = none))

/-- Only calls of the kind are made, and the attempt is dropped exactly where one of them
was not answered in time. -/
def Disciplined (kind : Op Conn → Prop) (α : Type) (trace : Trace (outboundSig Conn))
    (result : Except Halt α) : Prop :=
  (∀ event ∈ trace, kind event.op) ∧
    ((∃ event ∈ trace, Elapsed event) ↔ result = .error .elapsed)

section Discipline

variable {kind : Op Conn → Prop} {α : Type}

theorem disciplined_composes (kind : Op Conn → Prop) : Composes (Disciplined kind) where
  pure value := ⟨nofun, by simp⟩
  error hpost := by
    refine ⟨hpost.1, ?_⟩
    rw [hpost.2]
    simp
  append hbefore hafter := by
    refine ⟨List.forall_mem_append.mpr ⟨hbefore.1, hafter.1⟩, ?_⟩
    rw [← hafter.2]
    have hnone := hbefore.2
    simp only [reduceCtorEq, iff_false] at hnone
    simp only [List.mem_append, or_and_right, exists_or, hnone, false_or]

theorem settle_eq_elapsed {reply : Option (Except String α)} :
    settle reply = .error .elapsed ↔ reply = none := by
  rcases reply with _ | (_ | _) <;> simp [settle]

theorem settle_eq_ok {reply : Option (Except String α)} {value : α} :
    settle reply = .ok value ↔ reply = some (.ok value) := by
  rcases reply with _ | (_ | _) <;> simp [settle]

theorem relabel_eq_elapsed {label : String → String} {result : Except Halt α} :
    relabel label result = .error .elapsed ↔ result = .error .elapsed := by
  rcases result with (_ | _) | _ <;> simp [relabel]

theorem relabel_eq_ok {label : String → String} {result : Except Halt α} {value : α} :
    relabel label result = .ok value ↔ result = .ok value := by
  rcases result with (_ | _) | _ <;> simp [relabel]

theorem awaited_runs {program : Dial Conn (Option (Except String α))}
    {trace : Trace (outboundSig Conn)} {result : Except Halt α}
    (hrun : Runs (awaited program).run trace result) :
    ∃ reply, Runs program trace reply ∧ result = settle reply := by
  obtain ⟨first, last, reply, rfl, hfirst, hlast⟩ := Program.runs_bind_iff.mp hrun
  obtain ⟨rfl, rfl⟩ := Runs.of_pure hlast
  rw [List.append_nil]
  exact ⟨reply, hfirst, rfl⟩

theorem mapErr_runs {label : String → String} {attempt : Attempt Conn α}
    {trace : Trace (outboundSig Conn)} {result : Except Halt α}
    (hrun : Runs (mapErr label attempt).run trace result) :
    ∃ inner, Runs attempt.run trace inner ∧ result = relabel label inner := by
  obtain ⟨first, last, inner, rfl, hfirst, hlast⟩ := Program.runs_bind_iff.mp hrun
  obtain ⟨rfl, rfl⟩ := Runs.of_pure hlast
  rw [List.append_nil]
  exact ⟨inner, hfirst, rfl⟩

theorem perform_runs {op : Op Conn} {trace : Trace (outboundSig Conn)} {reply : Reply op}
    (hrun : Runs (perform op) trace reply) : trace = [⟨op, reply⟩] := by
  cases hrun with
  | call reply hnext =>
      cases hnext
      rfl

/-- A single call, whose answer says whether the time was up. -/
theorem awaited_disciplined {program : Dial Conn (Option (Except String α))}
    (hprogram : program.Ensures fun trace reply => ∃ event, trace = [event] ∧ kind event.op ∧
      (Elapsed event ↔ reply = none)) :
    (awaited program).run.Ensures (Disciplined kind α) := by
  intro trace result hrun
  obtain ⟨reply, hreply, rfl⟩ := awaited_runs hrun
  obtain ⟨event, rfl, hkind, helapsed⟩ := hprogram _ _ hreply
  refine ⟨by simpa using hkind, ?_⟩
  rw [settle_eq_elapsed, ← helapsed]
  simp

theorem mapErr_disciplined {label : String → String} {attempt : Attempt Conn α}
    (hattempt : attempt.run.Ensures (Disciplined kind α)) :
    (mapErr label attempt).run.Ensures (Disciplined kind α) := by
  intro trace result hrun
  obtain ⟨inner, hinner, rfl⟩ := mapErr_runs hrun
  obtain ⟨hkind, helapsed⟩ := hattempt _ _ hinner
  exact ⟨hkind, by rw [relabel_eq_elapsed, helapsed]⟩

theorem connectTcp_disciplined {host : Text} {port : Nat}
    (hkind : kind (.tcpConnect host port)) :
    (connectTcp host port).run.Ensures (Disciplined kind Conn) :=
  mapErr_disciplined (awaited_disciplined (.perform fun _ => ⟨_, rfl, hkind, Iff.rfl⟩))

end Discipline

/-! ## Through the proxy -/

section Proxied

variable (reader : AddressReader) (proxy : ProxyConfig) (targetHost : Text) (targetPort : Nat)

/-- The target as a SOCKS5 proxy is told it when it resolves names. -/
def named : TargetAddr :=
  match reader.ipAddr targetHost with
  | some ip => .ip ip targetPort
  | none => .domain targetHost targetPort

/-- The calls that a connection through the proxy may make: only the proxy is dialled, the
name of the target is looked up here only for SOCKS5 without remote DNS, and the credentials
go nowhere but to the proxy. -/
def Towards : Op Conn → Prop
  | .tcpConnect host port => proxy.kind = .http ∧ host = proxy.host ∧ port = proxy.port
  | .lookupHost host port =>
      proxy.kind = .socks5 false ∧ host = targetHost ∧ port = targetPort
  | .httpConnect _ host port auth =>
      proxy.kind = .http ∧ host = bracketed targetHost ∧ port = targetPort ∧ auth = proxy.auth
  | .socks5Connect host port target auth =>
      (proxy.kind = .socks5 false ∨
        proxy.kind = .socks5 true ∧ target = named reader targetHost targetPort) ∧
      host = proxy.host ∧ port = proxy.port ∧ auth = proxy.auth

/-- How a connection through the proxy came about. -/
def Tunnelled (conn : Conn) (trace : Trace (outboundSig Conn)) : Prop :=
  match proxy.kind with
  | .http =>
      trace = [⟨.tcpConnect proxy.host proxy.port, some (.ok conn)⟩,
        ⟨.httpConnect conn (bracketed targetHost) targetPort proxy.auth, some (.ok ())⟩]
  | .socks5 true =>
      trace = [⟨.socks5Connect proxy.host proxy.port (named reader targetHost targetPort)
        proxy.auth, some (.ok conn)⟩]
  | .socks5 false =>
      ∃ ip port rest, trace =
        [⟨.lookupHost targetHost targetPort, some (.ok ((ip, port) :: rest))⟩,
          ⟨.socks5Connect proxy.host proxy.port (.ip ip port) proxy.auth, some (.ok conn)⟩]

variable {reader proxy targetHost targetPort}

theorem connectHttpProxy_disciplined (hkind : proxy.kind = .http) :
    (connectHttpProxy proxy targetHost targetPort).run.Ensures
      (Disciplined (Towards reader proxy targetHost targetPort) Conn) := by
  have hcomposes := @disciplined_composes Conn (Towards reader proxy targetHost targetPort)
  refine hcomposes.bind (connectTcp_disciplined ⟨hkind, rfl, rfl⟩) fun stream => ?_
  refine hcomposes.bind (awaited_disciplined (.perform fun _ => ⟨_, rfl,
    ⟨hkind, rfl, rfl, rfl⟩, Iff.rfl⟩)) fun _ => ?_
  exact .pure (hcomposes.pure stream)

theorem socks5Target_remote :
    (socks5Target reader targetHost targetPort true : Attempt Conn _) =
      pure (named reader targetHost targetPort) := by
  simp only [socks5Target, named, if_true]
  split <;> rfl

theorem socks5Target_disciplined {remoteDns : Bool} (hkind : proxy.kind = .socks5 remoteDns) :
    (socks5Target reader targetHost targetPort remoteDns).run.Ensures fun trace result =>
      Disciplined (Towards reader proxy targetHost targetPort : Op Conn → Prop) TargetAddr trace
        result ∧
      ∀ target, result = .ok target → proxy.kind = .socks5 false ∨
        proxy.kind = .socks5 true ∧ target = named reader targetHost targetPort := by
  have hcomposes := @disciplined_composes Conn (Towards reader proxy targetHost targetPort)
  cases remoteDns with
  | true =>
      rw [socks5Target_remote]
      refine .pure ⟨hcomposes.pure _, ?_⟩
      rintro _ ⟨⟩
      exact .inr ⟨hkind, rfl⟩
  | false =>
      have hlookup : (socks5Target reader targetHost targetPort false).run.Ensures
          (Disciplined (Towards reader proxy targetHost targetPort : Op Conn → Prop)
            TargetAddr) := by
        refine hcomposes.bind (mapErr_disciplined (awaited_disciplined (.perform fun _ => ⟨_, rfl,
          ⟨hkind, rfl, rfl⟩, Iff.rfl⟩))) fun addresses => ?_
        cases addresses.head? with
        | none => exact .pure ⟨nofun, by simp⟩
        | some address => exact .pure (hcomposes.pure _)
      exact hlookup.mono fun _ _ hdone => ⟨hdone, fun _ _ => .inl hkind⟩

theorem connectViaProxy_disciplined :
    (connectViaProxy reader proxy targetHost targetPort).run.Ensures
      (Disciplined (Towards reader proxy targetHost targetPort) Conn) := by
  have hcomposes := @disciplined_composes Conn (Towards reader proxy targetHost targetPort)
  unfold connectViaProxy
  split
  next hkind => exact mapErr_disciplined (connectHttpProxy_disciplined hkind)
  next remoteDns hkind =>
    refine mapErr_disciplined (hcomposes.bind_of _ (socks5Target_disciplined hkind) ?_)
    intro target htarget
    exact awaited_disciplined (.perform fun _ => ⟨_, rfl, ⟨htarget, rfl, rfl, rfl⟩, Iff.rfl⟩)

theorem connectTcp_ok {host : Text} {port : Nat} {trace : Trace (outboundSig Conn)} {conn : Conn}
    (hrun : Runs (connectTcp host port).run trace (.ok conn)) :
    trace = [⟨.tcpConnect host port, some (.ok conn)⟩] := by
  obtain ⟨inner, hinner, hok⟩ := mapErr_runs hrun
  obtain ⟨reply, hreply, rfl⟩ := awaited_runs hinner
  rw [perform_runs hreply, settle_eq_ok.mp (relabel_eq_ok.mp hok.symm)]

theorem connectHttpProxy_ok {trace : Trace (outboundSig Conn)} {conn : Conn}
    (hrun : Runs (connectHttpProxy proxy targetHost targetPort).run trace (.ok conn)) :
    trace = [⟨.tcpConnect proxy.host proxy.port, some (.ok conn)⟩,
      ⟨.httpConnect conn (bracketed targetHost) targetPort proxy.auth, some (.ok ())⟩] := by
  rcases Program.runs_bindExcept hrun with ⟨_, -, hresult⟩ |
    ⟨before, after, stream, rfl, hbefore, hafter⟩
  · cases hresult
  rcases Program.runs_bindExcept hafter with ⟨_, -, hresult⟩ |
    ⟨request, rest, answer, rfl, hrequest, hrest⟩
  · cases hresult
  obtain ⟨rfl, hconn⟩ := Runs.of_pure hrest
  cases hconn
  obtain ⟨reply, hreply, hok⟩ := awaited_runs hrequest
  rw [connectTcp_ok hbefore, perform_runs hreply, settle_eq_ok.mp hok.symm]
  rfl

theorem connectSocks5Proxy_ok {remoteDns : Bool} {trace : Trace (outboundSig Conn)} {conn : Conn}
    (hrun : Runs (connectSocks5Proxy reader proxy targetHost targetPort remoteDns).run trace
      (.ok conn)) :
    ∃ before target, Runs (socks5Target reader targetHost targetPort remoteDns).run before
        (.ok target) ∧
      trace = before ++ [⟨.socks5Connect proxy.host proxy.port target proxy.auth,
        some (.ok conn)⟩] := by
  rcases Program.runs_bindExcept hrun with ⟨_, -, hresult⟩ |
    ⟨before, after, target, rfl, hbefore, hafter⟩
  · cases hresult
  obtain ⟨reply, hreply, hok⟩ := awaited_runs hafter
  rw [perform_runs hreply, settle_eq_ok.mp hok.symm]
  exact ⟨before, target, hbefore, rfl⟩

theorem socks5Target_local {trace : Trace (outboundSig Conn)} {target : TargetAddr}
    (hrun : Runs (socks5Target reader targetHost targetPort false).run trace (.ok target)) :
    ∃ ip port rest, target = .ip ip port ∧
      trace = [⟨.lookupHost targetHost targetPort, some (.ok ((ip, port) :: rest))⟩] := by
  rcases Program.runs_bindExcept hrun with ⟨_, -, hresult⟩ |
    ⟨before, after, addresses, rfl, hbefore, hafter⟩
  · cases hresult
  obtain ⟨inner, hinner, hok⟩ := mapErr_runs hbefore
  obtain ⟨reply, hreply, rfl⟩ := awaited_runs hinner
  rw [perform_runs hreply, settle_eq_ok.mp (relabel_eq_ok.mp hok.symm)]
  cases addresses with
  | nil =>
      obtain ⟨-, hresult⟩ := Runs.of_pure hafter
      cases hresult
  | cons address rest =>
      obtain ⟨rfl, hresult⟩ := Runs.of_pure hafter
      cases hresult
      exact ⟨address.1, address.2, rest, rfl, rfl⟩

/-- A connection through the proxy is made after the whole handshake with it. -/
theorem connectViaProxy_ok {trace : Trace (outboundSig Conn)} {conn : Conn}
    (hrun : Runs (connectViaProxy reader proxy targetHost targetPort).run trace (.ok conn)) :
    Tunnelled reader proxy targetHost targetPort conn trace := by
  unfold connectViaProxy at hrun
  unfold Tunnelled
  split at hrun
  next hkind =>
    obtain ⟨inner, hinner, hok⟩ := mapErr_runs hrun
    obtain rfl := relabel_eq_ok.mp hok.symm
    simp only [hkind]
    exact connectHttpProxy_ok hinner
  next remoteDns hkind =>
    obtain ⟨inner, hinner, hok⟩ := mapErr_runs hrun
    obtain rfl := relabel_eq_ok.mp hok.symm
    obtain ⟨before, target, hbefore, rfl⟩ := connectSocks5Proxy_ok hinner
    cases remoteDns with
    | true =>
        rw [socks5Target_remote] at hbefore
        obtain ⟨rfl, htarget⟩ := Runs.of_pure hbefore
        cases htarget
        simp only [hkind]
        rfl
    | false =>
        obtain ⟨ip, port, rest, rfl, rfl⟩ := socks5Target_local hbefore
        simp only [hkind]
        exact ⟨ip, port, rest, rfl⟩

end Proxied

theorem within_runs {elapsed : String} {attempt : Attempt Conn Conn}
    {trace : Trace (outboundSig Conn)} {result : Except OutboundError Conn}
    (hrun : Runs (within elapsed attempt) trace result) :
    ∃ inner, Runs attempt.run trace inner ∧ (∀ conn, result = .ok conn ↔ inner = .ok conn) ∧
      ((∃ error, result = .error error ∧ error.timedOut = true) ↔ inner = .error .elapsed) := by
  obtain ⟨first, last, inner, rfl, hfirst, hlast⟩ := Program.runs_bind_iff.mp hrun
  rcases inner with (_ | reason) | stream
  all_goals
    obtain ⟨rfl, rfl⟩ := Runs.of_pure hlast
    rw [List.append_nil]
    refine ⟨_, hfirst, ?_, ?_⟩ <;> simp

/-! ## The connector -/

theorem connectDirect_runs {host : Text} {port : Nat} {trace : Trace (outboundSig Conn)}
    {result : Except OutboundError Conn} (hrun : Runs (connectDirect host port) trace result) :
    ∃ reply, trace = [⟨.tcpConnect host port, reply⟩] ∧
      (∀ conn, result = .ok conn ↔ reply = some (.ok conn)) ∧
      ((∃ error, result = .error error ∧ error.timedOut = true) ↔ reply = none) := by
  obtain ⟨inner, hinner, hok, htimed⟩ := within_runs hrun
  obtain ⟨settled, hsettled, rfl⟩ := mapErr_runs hinner
  obtain ⟨reply, hreply, rfl⟩ := awaited_runs hsettled
  simp only [relabel_eq_ok, settle_eq_ok] at hok
  rw [relabel_eq_elapsed, settle_eq_elapsed] at htimed
  exact ⟨reply, perform_runs hreply, hok, htimed⟩

section Connector

variable {reader : AddressReader} {config : OutboundConfig} {targetHost : Text} {targetPort : Nat}

theorem connect_of_direct (hdirect : config.connectsDirectly reader targetHost targetPort = true) :
    config.connect reader targetHost targetPort =
      (connectDirect targetHost targetPort : Dial Conn _) := by
  unfold OutboundConfig.connect
  split
  next => rfl
  next proxy hproxy =>
    rw [OutboundConfig.connectsDirectly, hproxy] at hdirect
    exact if_pos hdirect

theorem connect_of_proxied
    (hdirect : config.connectsDirectly reader targetHost targetPort = false) :
    ∃ proxy, config.proxy = some proxy ∧ config.connect reader targetHost targetPort =
      (within ("proxy " ++ proxy.summary ++ " handshake timed out")
        (connectViaProxy reader proxy targetHost targetPort) : Dial Conn _) := by
  obtain ⟨hsome, hbypass⟩ := Bool.or_eq_false_iff.mp hdirect
  obtain ⟨proxy, hproxy⟩ := Option.isSome_iff_exists.mp (Option.isNone_eq_false_iff.mp hsome)
  refine ⟨proxy, hproxy, ?_⟩
  unfold OutboundConfig.connect
  rw [hproxy]
  exact if_neg (by simp [hbypass])

variable {trace : Trace (outboundSig Conn)} {result : Except OutboundError Conn}

theorem connect_runs_proxied
    (hrun : Runs (config.connect reader targetHost targetPort) trace result)
    (hdirect : config.connectsDirectly reader targetHost targetPort = false) :
    ∃ proxy, config.proxy = some proxy ∧
      (∀ event ∈ trace, Towards reader proxy targetHost targetPort event.op) ∧
      (∀ conn, result = .ok conn → Tunnelled reader proxy targetHost targetPort conn trace) ∧
      ((∃ error, result = .error error ∧ error.timedOut = true) ↔
        ∃ event ∈ trace, Elapsed event) := by
  obtain ⟨proxy, hproxy, hconnect⟩ := @connect_of_proxied Conn _ _ _ _ hdirect
  rw [hconnect] at hrun
  obtain ⟨inner, hinner, hok, htimed⟩ := within_runs hrun
  obtain ⟨htowards, helapsed⟩ := connectViaProxy_disciplined _ _ hinner
  refine ⟨proxy, hproxy, htowards, fun conn hresult => ?_, htimed.trans helapsed.symm⟩
  rw [(hok conn).mp hresult] at hinner
  exact connectViaProxy_ok hinner

/-- An error says that it timed out exactly where an answer was missing. -/
theorem connect_timedOut_iff
    (hrun : Runs (config.connect reader targetHost targetPort) trace result) :
    (∃ error, result = .error error ∧ error.timedOut = true) ↔ ∃ event ∈ trace, Elapsed event := by
  cases hdirect : config.connectsDirectly reader targetHost targetPort with
  | true =>
      rw [connect_of_direct hdirect] at hrun
      obtain ⟨reply, rfl, -, htimed⟩ := connectDirect_runs hrun
      rw [htimed]
      simp [Elapsed]
  | false =>
      obtain ⟨_, -, -, -, htimed⟩ := connect_runs_proxied hrun hdirect
      exact htimed

end Connector

/-- Every connection that the connector opens. A target without a proxy, or on the list of
exceptions, is dialled itself and nothing else is done. For every other target only the proxy
is dialled, with one handshake behind a connection; the name of the target is looked up here
for SOCKS5 without remote DNS alone. An error says that it timed out exactly where an answer
was missing when the time was up. -/
theorem outbound_dial_discipline (reader : AddressReader) (config : OutboundConfig)
    (targetHost : Text) (targetPort : Nat) {trace : Trace (outboundSig Conn)}
    {result : Except OutboundError Conn}
    (hrun : Runs (config.connect reader targetHost targetPort) trace result) :
    (config.connectsDirectly reader targetHost targetPort = true →
      ∃ reply, trace = [⟨.tcpConnect targetHost targetPort, reply⟩] ∧
        ∀ conn, result = .ok conn ↔ reply = some (.ok conn)) ∧
    (config.connectsDirectly reader targetHost targetPort = false →
      ∃ proxy, config.proxy = some proxy ∧
        (∀ event ∈ trace, Towards reader proxy targetHost targetPort event.op) ∧
        ∀ conn, result = .ok conn → Tunnelled reader proxy targetHost targetPort conn trace) ∧
    ((∃ error, result = .error error ∧ error.timedOut = true) ↔
      ∃ event ∈ trace, Elapsed event) := by
  refine ⟨fun hdirect => ?_, fun hdirect => ?_, connect_timedOut_iff hrun⟩
  · rw [connect_of_direct hdirect] at hrun
    obtain ⟨reply, htrace, hok, -⟩ := connectDirect_runs hrun
    exact ⟨reply, htrace, hok⟩
  · obtain ⟨proxy, hproxy, htowards, htunnelled, -⟩ := connect_runs_proxied hrun hdirect
    exact ⟨proxy, hproxy, htowards, htunnelled⟩

/-- A reader that takes everything for a name. -/
def nameReader : AddressReader := ⟨fun _ => none, fun _ => none, fun _ => none, fun _ _ => false⟩

/-- A name goes to the proxy as it is, and the proxy does not answer in time. -/
theorem outbound_dial_discipline_unanswered :
    let proxy : ProxyConfig := ⟨.socks5 true, "p".toList, 1080, some "u".toList, none⟩
    let event : Event (outboundSig Unit) :=
      ⟨.socks5Connect "p".toList 1080 (.domain "t.example".toList 443)
        (some ⟨"u".toList, []⟩), none⟩
    Elapsed event ∧ Towards nameReader proxy "t.example".toList 443 event.op ∧
      ∃ error, Runs (OutboundConfig.connect nameReader ⟨some proxy, none⟩ "t.example".toList 443)
          [event] (.error error) ∧ error.timedOut = true := by
  intro proxy event
  have hrun : Runs (OutboundConfig.connect nameReader ⟨some proxy, none⟩ "t.example".toList 443)
      [event] (.error ⟨"proxy " ++ proxy.summary ++ " handshake timed out", true⟩) :=
    @Runs.call (outboundSig Unit) _ (.socks5Connect _ _ _ _) _ none _ _ (.pure _)
  obtain ⟨-, hproxied, htimed⟩ := outbound_dial_discipline nameReader ⟨some proxy, none⟩ _ _ hrun
  obtain ⟨_, hproxy, htowards, -⟩ := hproxied rfl
  cases hproxy
  obtain ⟨_, hmem, helapsed⟩ := htimed.mp ⟨_, rfl, rfl⟩
  cases List.mem_singleton.mp hmem
  exact ⟨helapsed, htowards event List.mem_cons_self, _, hrun, rfl⟩

/-! ## Credentials -/

/-- The same call with the same answer, but for the credentials that go along. -/
def SameButCredentials : Event (outboundSig Conn) → Event (outboundSig Conn) → Prop
  | ⟨.httpConnect conn host port auth, reply⟩, other =>
      ∃ auth' : Option Auth, auth'.isSome = auth.isSome ∧
        other = ⟨.httpConnect conn host port auth', reply⟩
  | ⟨.socks5Connect host port target auth, reply⟩, other =>
      ∃ auth' : Option Auth, auth'.isSome = auth.isSome ∧
        other = ⟨.socks5Connect host port target auth', reply⟩
  | ⟨.tcpConnect host port, reply⟩, other => other = ⟨.tcpConnect host port, reply⟩
  | ⟨.lookupHost host port, reply⟩, other => other = ⟨.lookupHost host port, reply⟩

theorem sameButCredentials_refl (event : Event (outboundSig Conn)) :
    SameButCredentials event event := by
  rcases event with ⟨_ | _ | _ | _, _⟩
  · rfl
  · rfl
  · exact ⟨_, rfl, rfl⟩
  · exact ⟨_, rfl, rfl⟩

section Credentials

variable {reader : AddressReader} {proxy other : ProxyConfig} {α : Type}

/-- Two proxies that differ in their credentials only. -/
structure SameProxy (proxy other : ProxyConfig) : Prop where
  kind : other.kind = proxy.kind
  host : other.host = proxy.host
  port : other.port = proxy.port
  username : other.username.isSome = proxy.username.isSome

theorem SameProxy.summary (hsame : SameProxy proxy other) : other.summary = proxy.summary := by
  unfold ProxyConfig.summary ProxyConfig.scheme
  rw [hsame.kind, hsame.host, hsame.port, hsame.username]

theorem SameProxy.auth (hsame : SameProxy proxy other) :
    other.auth.isSome = proxy.auth.isSome := by
  rw [ProxyConfig.auth, ProxyConfig.auth, Option.isSome_map, Option.isSome_map, hsame.username]

theorem awaited_mirrors {program mirror : Dial Conn (Option (Except String α))}
    (hmirrors : Mirrors SameButCredentials program mirror) :
    Mirrors SameButCredentials (awaited program).run (awaited mirror).run :=
  hmirrors.bind fun _ => rfl

theorem mapErr_mirrors {label : String → String} {attempt mirror : Attempt Conn α}
    (hmirrors : Mirrors SameButCredentials attempt.run mirror.run) :
    Mirrors SameButCredentials (mapErr label attempt).run (mapErr label mirror).run :=
  hmirrors.bind fun _ => rfl

theorem connectViaProxy_mirrors (hsame : SameProxy proxy other) (targetHost : Text)
    (targetPort : Nat) :
    Mirrors SameButCredentials
      (connectViaProxy reader proxy targetHost targetPort : Attempt Conn Conn).run
      (connectViaProxy reader other targetHost targetPort).run := by
  unfold connectViaProxy
  rw [hsame.kind, hsame.summary]
  cases proxy.kind with
  | http =>
      refine mapErr_mirrors ?_
      unfold connectHttpProxy
      rw [hsame.host, hsame.port]
      refine .bindExcept (.refl sameButCredentials_refl _) fun stream => ?_
      refine .bindExcept (awaited_mirrors ?_) fun _ => .refl sameButCredentials_refl _
      exact fun reply => ⟨reply, ⟨_, hsame.auth, rfl⟩, rfl⟩
  | socks5 remoteDns =>
      refine mapErr_mirrors ?_
      unfold connectSocks5Proxy
      rw [hsame.host, hsame.port]
      refine .bindExcept (.refl sameButCredentials_refl _) fun target => awaited_mirrors ?_
      exact fun reply => ⟨reply, ⟨_, hsame.auth, rfl⟩, rfl⟩

end Credentials

/-- The credentials of the proxy appear nowhere but in the requests to it: with others, every
connection goes the same way, to the same result with the same text, and the proxy is logged
in the same way. -/
theorem outbound_hides_credentials (reader : AddressReader) {proxy other : ProxyConfig}
    (hsame : SameProxy proxy other) (noProxy : Option (List NoProxyMatcher)) (targetHost : Text)
    (targetPort : Nat) {trace : Trace (outboundSig Conn)} {result : Except OutboundError Conn}
    (hrun : Runs (OutboundConfig.connect reader ⟨some proxy, noProxy⟩ targetHost targetPort) trace
      result) :
    other.summary = proxy.summary ∧
      ∃ reflection, List.Forall₂ SameButCredentials trace reflection ∧
        Runs (OutboundConfig.connect reader ⟨some other, noProxy⟩ targetHost targetPort) reflection
          result := by
  refine ⟨hsame.summary, Mirrors.runs ?_ hrun⟩
  unfold OutboundConfig.connect
  change Mirrors _ (if OutboundConfig.shouldBypass reader ⟨some proxy, noProxy⟩ _ _ then _ else _)
    (if OutboundConfig.shouldBypass reader ⟨some proxy, noProxy⟩ _ _ then _ else _)
  split
  next => exact .refl sameButCredentials_refl _
  next =>
    rw [hsame.summary]
    refine (connectViaProxy_mirrors hsame targetHost targetPort).bind fun result => ?_
    exact .refl sameButCredentials_refl _

theorem outbound_hides_credentials_http :
    let proxy : ProxyConfig := ⟨.http, "p".toList, 80, some "u".toList, some "secret".toList⟩
    let other : ProxyConfig := ⟨.http, "p".toList, 80, some "v".toList, none⟩
    let refused : Except OutboundError Unit :=
      .error ⟨"HTTP proxy " ++ proxy.summary ++ ": " ++ "407", false⟩
    ∃ reflection,
      Runs (OutboundConfig.connect nameReader ⟨some other, none⟩ "t.example".toList 443) reflection
        refused := by
  intro proxy other refused
  have hrun : Runs (OutboundConfig.connect nameReader ⟨some proxy, none⟩ "t.example".toList 443)
      [⟨.tcpConnect "p".toList 80, some (.ok ())⟩,
        ⟨.httpConnect () "t.example".toList 443 (some ⟨"u".toList, "secret".toList⟩),
          some (.error "407")⟩] refused := by
    refine @Runs.call (outboundSig Unit) _ (.tcpConnect _ _) _ (some (.ok ())) _ _ ?_
    exact @Runs.call (outboundSig Unit) _ (.httpConnect _ _ _ _) _ (some (.error "407")) _ _
      (.pure _)
  have hsame : SameProxy proxy other := ⟨rfl, rfl, rfl, rfl⟩
  obtain ⟨-, reflection, -, hreflection⟩ :=
    outbound_hides_credentials nameReader hsame none _ _ hrun
  exact ⟨reflection, hreflection⟩

end TgWsProxy.Outbound
