import TgWsProxy.Foundation.Layer
import TgWsProxy.Transport.EdgeWalk

/-!
# From the walk to the wire

The walk along the Cloudflare edges opens WebSocket connections, each of them opens a TCP
connection, and that one is opened by the connector, directly or through a proxy. Put
together, what the cooldown map learns of an edge is what was seen on the wire.
-/

namespace TgWsProxy.Transport

open Foundation.Effect TgWsProxy.Cloudflare
open Foundation.Effect.Program (Ensures EnsuresAfter Runs)
open TgWsProxy.Outbound (AddressReader Elapsed OutboundConfig Towards outboundSig)

variable {Ip Ws Conn : Type}

/-! ## Three layers -/

/-- What a dial leaves to the wire: the upgrade, and what the connector does. -/
abbrev wireSig (Ws Conn : Type) : Signature := (netSig Ws).sum (outboundSig Conn)

/-- The shared state of the walks, and the wire. -/
abbrev stackSig (Ip Ws Conn : Type) : Signature := (edgeSig Ip Ws).sum (wireSig Ws Conn)

section Stack

variable (reader : AddressReader) (config : OutboundConfig)

/-- The TCP connection of a dial is opened by the connector. -/
def openConnection : (op : NetOp) → Program (wireSig Ws Conn) (NetReply Ws op)
  | .connect host port _ => do
      let stream ← (config.connect reader host.toList port).inr
      pure (stream.map fun _ => ())
  | .clientRequest url => @Program.perform (wireSig Ws Conn) (.inl (.clientRequest url))
  | .upgrade security request timeout =>
      @Program.perform (wireSig Ws Conn) (.inl (.upgrade security request timeout))

/-- The dials of a walk are those of `connect_ws_with_path`. -/
def dialEdge : (op : EdgeOp Ip) → Program (stackSig Ip Ws Conn) (EdgeReply Ip Ws op)
  | .dial dial => ((connectWsWithPath dial).link (openConnection reader config)).inr
  | .fetchAdd => @Program.perform (stackSig Ip Ws Conn) (.inl .fetchAdd)
  | .entries disableTls => @Program.perform (stackSig Ip Ws Conn) (.inl (.entries disableTls))
  | .now => @Program.perform (stackSig Ip Ws Conn) (.inl .now)
  | .insert disableTls ip deadline =>
      @Program.perform (stackSig Ip Ws Conn) (.inl (.insert disableTls ip deadline))
  | .remove disableTls ip => @Program.perform (stackSig Ip Ws Conn) (.inl (.remove disableTls ip))

/-- What the connector did. -/
def connectorCalls (calls : Trace (stackSig Ip Ws Conn)) : Trace (outboundSig Conn) :=
  rights (rights calls)

end Stack

/-! ## One dial -/

/-- The first call of a dial is the only connect, and its result tells a connect that timed
out from every other failure. -/
def Reports (dial : WsDial) (trace : Trace (netSig Ws)) (result : WsConnectResult Ws) : Prop :=
  ∃ reply rest, trace = ⟨.connect dial.ip (wsPort dial.disableTls) dial.timeout, reply⟩ :: rest ∧
    (∀ event ∈ rest, ∀ host port timeout, event.op ≠ .connect host port timeout) ∧
    ((∃ reason, result = .connectTimedOut reason) ↔
      ∃ error, reply = .error error ∧ error.timedOut = true)

theorem Reports.of_ok (dial : WsDial) {rest : Trace (netSig Ws)} {result : WsConnectResult Ws}
    (hrest : ∀ event ∈ rest, ∀ host port timeout, event.op ≠ .connect host port timeout)
    (hresult : ∀ reason, result ≠ .connectTimedOut reason) :
    Reports dial (⟨.connect dial.ip (wsPort dial.disableTls) dial.timeout, .ok ()⟩ :: rest)
      result :=
  ⟨.ok (), rest, rfl, hrest, by simp [hresult]⟩

theorem connectWsWithPath_reports (dial : WsDial) :
    Ensures (connectWsWithPath dial : Program (netSig Ws) (WsConnectResult Ws))
      (Reports dial) := by
  refine .call fun tcp => ?_
  cases tcp with
  | error error =>
      change EnsuresAfter _ (ite _ _ _) _
      split
      next htimed => exact .pure ⟨.error error, [], rfl, nofun, by simp [htimed]⟩
      next hfailed => exact .pure ⟨.error error, [], rfl, nofun, by simp [hfailed]⟩
  | ok =>
      refine .call fun client => ?_
      cases client with
      | error text => exact .pure (.of_ok dial (by simp) (by simp))
      | ok host =>
          refine .call fun result => ?_
          rcases result with _ | ⟨ws, status⟩ | status | text
          · exact .pure (.of_ok dial (by simp) (by simp))
          · change EnsuresAfter _ (ite _ _ (ite _ _ _)) _
            split
            · exact .pure (.of_ok dial (by simp) (by simp))
            · split <;> exact .pure (.of_ok dial (by simp) (by simp))
          · change EnsuresAfter _ (ite _ _ _) _
            split <;> exact .pure (.of_ok dial (by simp) (by simp))
          · exact .pure (.of_ok dial (by simp) (by simp))

section Wire

variable {reader : AddressReader} {config : OutboundConfig}

theorem openConnection_of_ne {op : NetOp}
    (hop : ∀ host port timeout, op ≠ .connect host port timeout) :
    openConnection reader config op = @Program.perform (wireSig Ws Conn) (.inl op) := by
  cases op with
  | connect host port timeout => exact (hop host port timeout rfl).elim
  | clientRequest | upgrade => rfl

theorem rights_of_openConnection {event : Event (netSig Ws)}
    (hevent : ∀ host port timeout, event.op ≠ .connect host port timeout)
    {part : Trace (wireSig Ws Conn)}
    (hpart : Runs (openConnection reader config event.op) part event.reply) : rights part = [] := by
  rw [openConnection_of_ne hevent] at hpart
  exact hpart.of_perform_inl.2

/-- What the connector does for a dial, and what the dial makes of it. -/
theorem dial_runs {dial : WsDial} {calls : Trace (wireSig Ws Conn)} {result : WsConnectResult Ws}
    (hrun : Runs ((connectWsWithPath dial).link (openConnection reader config)) calls result) :
    ∃ outcome, Runs (config.connect reader dial.ip.toList (wsPort dial.disableTls)) (rights calls)
        outcome ∧
      ((∃ reason, result = .connectTimedOut reason) ↔ ∃ event ∈ rights calls, Elapsed event) := by
  obtain ⟨trace, hupper, hcarried⟩ := runs_link_iff.mp hrun
  obtain ⟨reply, rest, rfl, hrest, htimed⟩ := connectWsWithPath_reports dial _ _ hupper
  cases hcarried with
  | cons hpart hcarried =>
      have hquiet := hcarried.rights_eq_nil fun event hmem _ =>
        rights_of_openConnection (hrest event hmem)
      rw [rights_append, hquiet, List.append_nil]
      obtain ⟨first, last, outcome, rfl, hfirst, hlast⟩ := Program.runs_bind_iff.mp hpart
      obtain ⟨rfl, hvalue⟩ := Runs.of_pure hlast
      rw [List.append_nil]
      have hreply : reply = outcome.map fun _ => () := hvalue
      have hconnect := hfirst.of_inr.2
      refine ⟨outcome, hconnect, htimed.trans ?_⟩
      rw [← Outbound.connect_timedOut_iff hconnect, hreply]
      cases outcome <;> simp [Except.map]

end Wire

/-! ## The walk -/

/-- An edge that was dialled: what the connector did for it, and the clock when a cooldown
was set. -/
structure Visit (Ip Conn : Type) where
  ip : Ip
  opened : Trace (outboundSig Conn)
  clock : Nat

section Walk

variable [ToString Ip] (reader : AddressReader) (config : OutboundConfig) (disableTls : Bool)
  (failCooldown : Nat)

/-- The edge is dialled at its own address. -/
def Visit.direct (visit : Visit Ip Conn) : Bool :=
  config.connectsDirectly reader (toString visit.ip).toList (wsPort disableTls)

/-- What the wire teaches about an edge: one that answered is cleared; one that did not is
set, unless it was the proxy that did not answer. -/
def Visit.note [DecidableEq Ip] (map : Ip → Option Nat) (visit : Visit Ip Conn) :
    Ip → Option Nat :=
  if ∃ event ∈ visit.opened, Elapsed event then
    if visit.direct reader config disableTls then
      Function.update map visit.ip (some (visit.clock + failCooldown))
    else map
  else Function.update map visit.ip none

/-- The attempt of a walk, with what was seen of it on the wire. -/
structure Sees (attempt : Attempt Ip Ws) (visit : Visit Ip Conn) : Prop where
  ip : visit.ip = attempt.ip
  clock : visit.clock = attempt.clock
  connects : ∃ outcome, Runs (config.connect reader (toString visit.ip).toList
    (wsPort disableTls)) visit.opened outcome
  timedOut : (∃ reason, attempt.result = .connectTimedOut reason) ↔
    ∃ event ∈ visit.opened, Elapsed event

variable {reader config}

theorem Sees.note_eq [DecidableEq Ip] {dial : WsDial} {attempt : Attempt Ip Ws}
    {visit : Visit Ip Conn} (hsees : Sees reader config dial.disableTls attempt visit)
    (map : Ip → Option Nat) :
    attempt.note dial (.ofConfig reader config) failCooldown map =
      visit.note reader config dial.disableTls failCooldown map := by
  have htimed := hsees.timedOut
  unfold Attempt.note Visit.note Visit.direct
  rw [OutboundConnector.connectsDirectly_ofConfig, hsees.ip, hsees.clock]
  cases hresult : attempt.result with
  | connectTimedOut reason => rw [if_pos (htimed.mp ⟨reason, hresult⟩)]
  | connected | redirect | failed | timedOut =>
      have hanswered : ¬ ∃ event ∈ visit.opened, Elapsed event := by
        rw [← htimed, hresult]
        rintro ⟨_, ⟨⟩⟩
      rw [if_neg hanswered]

omit [ToString Ip] in
theorem dialEdge_of_ne {op : EdgeOp Ip} (hop : ∀ dial, op ≠ .dial dial) :
    dialEdge reader config op = @Program.perform (stackSig Ip Ws Conn) (.inl op) := by
  cases op with
  | dial dial => exact (hop dial rfl).elim
  | fetchAdd | entries | now | insert | remove => rfl

omit [ToString Ip] in
theorem rights_of_dialEdge {event : Event (edgeSig Ip Ws)} (hevent : ∀ dial, event.op ≠ .dial dial)
    {part : Trace (stackSig Ip Ws Conn)}
    (hpart : Runs (dialEdge reader config event.op) part event.reply) : rights part = [] := by
  rw [dialEdge_of_ne hevent] at hpart
  exact hpart.of_perform_inl.2

/-- An attempt makes one dial, and then takes note of it. -/
theorem Attempt.events_eq (dial : WsDial) (outbound : OutboundConnector)
    (attempt : Attempt Ip Ws) :
    ∃ noted, attempt.events dial outbound failCooldown =
        ⟨.dial { dial with ip := toString attempt.ip }, attempt.result⟩ :: noted ∧
      ∀ event ∈ noted, ∀ other, event.op ≠ .dial other := by
  refine ⟨_, rfl, ?_⟩
  cases attempt.result with
  | connectTimedOut reason =>
      simp only
      split <;> simp
  | connected | redirect | failed | timedOut => simp

/-- The calls behind one attempt. -/
theorem sees_of_carried {dial : WsDial} {attempt : Attempt Ip Ws}
    {calls : Trace (stackSig Ip Ws Conn)} {outbound : OutboundConnector}
    (hcarried : Carried (dialEdge reader config) (attempt.events dial outbound failCooldown)
      calls) :
    ∃ visit, Sees reader config dial.disableTls attempt visit ∧
      connectorCalls calls = visit.opened := by
  obtain ⟨noted, hevents, hquiet⟩ := attempt.events_eq failCooldown dial outbound
  rw [hevents] at hcarried
  cases hcarried with
  | @cons _ _ part _ hdial hnoted =>
      obtain ⟨outcome, hconnect, htimed⟩ := dial_runs hdial.of_inr.2
      refine ⟨⟨attempt.ip, connectorCalls part, attempt.clock⟩,
        ⟨rfl, rfl, ⟨outcome, hconnect⟩, htimed⟩, ?_⟩
      have hsilent := hnoted.rights_eq_nil fun event hmem _ =>
        rights_of_dialEdge (hquiet event hmem)
      rw [connectorCalls, rights_append, hsilent, List.append_nil]
      rfl

theorem visits_of_carried {dial : WsDial} {walk : List (Attempt Ip Ws)}
    {calls : Trace (stackSig Ip Ws Conn)} {outbound : OutboundConnector}
    (hcarried : Carried (dialEdge reader config)
      (walk.flatMap (Attempt.events dial outbound failCooldown)) calls) :
    ∃ visits, List.Forall₂ (Sees reader config dial.disableTls) walk visits ∧
      connectorCalls calls = visits.flatMap Visit.opened := by
  induction walk generalizing calls with
  | nil =>
      cases hcarried
      exact ⟨[], .nil, rfl⟩
  | cons attempt walk ih =>
      obtain ⟨before, after, rfl, hbefore, hafter⟩ := hcarried.of_append
      obtain ⟨visit, hsees, hopened⟩ := sees_of_carried failCooldown hbefore
      obtain ⟨visits, hvisits, hrest⟩ := ih hafter
      refine ⟨visit :: visits, .cons hsees hvisits, ?_⟩
      rw [connectorCalls, rights_append, rights_append, List.flatMap_cons, ← hopened, ← hrest]
      rfl

theorem exists_sees {walk : List (Attempt Ip Ws)} {visits : List (Visit Ip Conn)}
    (hvisits : List.Forall₂ (Sees reader config disableTls) walk visits) {visit : Visit Ip Conn}
    (hvisit : visit ∈ visits) : ∃ attempt ∈ walk, Sees reader config disableTls attempt visit := by
  induction hvisits with
  | nil => cases hvisit
  | cons hhead _ ih =>
      rcases List.mem_cons.mp hvisit with rfl | hvisit
      · exact ⟨_, List.mem_cons_self, hhead⟩
      · obtain ⟨attempt, hmem, hsees⟩ := ih hvisit
        exact ⟨attempt, List.mem_cons_of_mem _ hmem, hsees⟩

variable [DecidableEq Ip]

omit [ToString Ip] in
/-- Only the calls of the walk itself change the map. -/
theorem mapAfter_lefts {trace : Trace (edgeSig Ip Ws)} {calls : Trace (stackSig Ip Ws Conn)}
    (hcarried : Carried (dialEdge reader config) trace calls) (map : Ip → Option Nat) :
    mapAfter disableTls map (lefts calls) = mapAfter disableTls map trace := by
  induction hcarried generalizing map with
  | nil => rfl
  | @cons event trace part rest hpart _ ih =>
      have hevent : mapAfter disableTls map (lefts part) = applyEvent disableTls map event := by
        by_cases hdial : ∃ dial, event.op = .dial dial
        · obtain ⟨op, reply⟩ := event
          obtain ⟨dial, rfl⟩ := hdial
          rw [hpart.of_inr.1]
          rfl
        · rw [dialEdge_of_ne (not_exists.mp hdial)] at hpart
          rw [hpart.of_perform_inl.1]
          rfl
      rw [lefts_append, mapAfter_append, hevent, ih]
      rfl

theorem foldl_note_eq {dial : WsDial} {walk : List (Attempt Ip Ws)} {visits : List (Visit Ip Conn)}
    (hsees : List.Forall₂ (Sees reader config dial.disableTls) walk visits)
    (map : Ip → Option Nat) :
    walk.foldl (Attempt.note dial (.ofConfig reader config) failCooldown) map =
      visits.foldl (Visit.note reader config dial.disableTls failCooldown) map := by
  refine List.rel_foldl ?_ rfl hsees
  rintro map _ rfl attempt visit hvisit
  exact hvisit.note_eq failCooldown map

omit [ToString Ip] [DecidableEq Ip] in
theorem Follows.ip_mem {ips : List Ip} {first : Nat} {cooling : Ip → Bool}
    {walk : List (Attempt Ip Ws)} (hwalk : Follows (edgeOrder ips first cooling) walk)
    {attempt : Attempt Ip Ws} (hattempt : attempt ∈ walk) : attempt.ip ∈ ips := by
  obtain ⟨rest, horder, -⟩ := hwalk.order_eq
  refine @mem_of_mem_edgeOrder Ip ips first cooling _ ?_
  rw [horder]
  exact List.mem_append_left rest (List.mem_map_of_mem hattempt)

end Walk

/-- Through all the layers, the cooldown map learns of an edge what was seen on the wire. Every
call of the connector belongs to a visit of one of the preferred edges; an edge without a proxy
is visited by one TCP connect to its own address, and for any other only the proxy is dialled.
An edge is set to cool exactly when that connect of its own was not answered in time. -/
theorem edge_cooldown_observed [ToString Ip] [DecidableEq Ip] (reader : AddressReader)
    (config : OutboundConfig) (domain path : String)
    (requestBinarySubprotocol skipTlsVerify : Bool) (timeout : Nat) (opts : CfDialOpts Ip)
    (hips : opts.cfIps ≠ []) {calls : Trace (stackSig Ip Ws Conn)}
    {result : Option (WsConnectResult Ws)}
    (hrun : Runs ((connectCfWithPath domain path requestBinarySubprotocol skipTlsVerify timeout
      (.ofConfig reader config) opts).link (dialEdge reader config)) calls result) :
    ∃ visits : List (Visit Ip Conn),
      connectorCalls calls = visits.flatMap Visit.opened ∧
      (∀ visit ∈ visits, visit.ip ∈ opts.cfIps ∧
        (visit.direct reader config opts.disableTls = true → ∃ reply,
          visit.opened = [⟨.tcpConnect (toString visit.ip).toList (wsPort opts.disableTls),
            reply⟩]) ∧
        (visit.direct reader config opts.disableTls = false → ∃ proxy,
          config.proxy = some proxy ∧ ∀ event ∈ visit.opened,
            Towards reader proxy (toString visit.ip).toList (wsPort opts.disableTls) event.op)) ∧
      ∀ map, mapAfter opts.disableTls map (lefts calls) =
        visits.foldl (Visit.note reader config opts.disableTls opts.failCooldown) map := by
  obtain ⟨trace, hupper, hcarried⟩ := runs_link_iff.mp hrun
  obtain ⟨turn, first, entries, now, walk, -, hturn, rfl, hwalk, -⟩ :=
    connectCfWithPath_ensures domain path requestBinarySubprotocol skipTlsVerify timeout
      (.ofConfig reader config) opts hips _ _ hupper
  have hread : turn = [] ∨ ∃ count, turn = [⟨.fetchAdd, count⟩] :=
    hturn.imp And.left (Exists.imp fun _ => And.left)
  obtain ⟨before, after, rfl, hbefore, hafter⟩ := hcarried.of_append
  obtain ⟨visits, hvisits, hopened⟩ := visits_of_carried opts.failCooldown hafter
  refine ⟨visits, ?_, ?_, ?_⟩
  · have hquiet : rights before = [] := by
      refine hbefore.rights_eq_nil fun event hmem _ => rights_of_dialEdge ?_
      rcases hread with rfl | ⟨count, rfl⟩ <;> revert event <;> simp
    rw [connectorCalls, rights_append, hquiet, List.nil_append]
    exact hopened
  · intro visit hvisit
    obtain ⟨attempt, hmem, hsees⟩ := exists_sees opts.disableTls hvisits hvisit
    obtain ⟨outcome, hconnect⟩ := hsees.connects
    refine ⟨hsees.ip ▸ hwalk.ip_mem hmem, fun hdirect => ?_, fun hproxied => ?_⟩
    · rw [Outbound.connect_of_direct hdirect] at hconnect
      obtain ⟨reply, htrace, -⟩ := Outbound.connectDirect_runs hconnect
      exact ⟨reply, htrace⟩
    · obtain ⟨proxy, hproxy, htowards, -⟩ := Outbound.connect_runs_proxied hconnect hproxied
      exact ⟨proxy, hproxy, htowards⟩
  · intro map
    rw [mapAfter_lefts opts.disableTls hcarried, mapAfter_append, mapAfter_readings hread]
    exact (mapAfter_walk _ _ _ map walk).trans (foldl_note_eq opts.failCooldown hvisits map)

/-- The first of two edges does not answer, the second one does. -/
theorem edge_cooldown_observed_second_edge :
    let opts : CfDialOpts Nat := ⟨[1, 2], false, 60⟩
    let program : EdgeM Nat Unit _ := connectCfWithPath "kws2.example.com" "/apiws" true false 10
      (.ofConfig Outbound.nameReader ⟨none, none⟩) opts
    ∃ (calls : Trace (stackSig Nat Unit Unit)) (visits : List (Visit Nat Unit)),
      Runs (program.link (dialEdge Outbound.nameReader ⟨none, none⟩)) calls
        (some (.connected ())) ∧
      connectorCalls calls = [⟨.tcpConnect (toString 1).toList 443, none⟩,
        ⟨.tcpConnect (toString 2).toList 443, some (.ok ())⟩] ∧
      connectorCalls calls = visits.flatMap Visit.opened ∧
      visits.foldl (Visit.note Outbound.nameReader ⟨none, none⟩ false 60) (fun _ => some 3) 1 =
        some 67 ∧
      visits.foldl (Visit.note Outbound.nameReader ⟨none, none⟩ false 60) (fun _ => some 3) 2 =
        none := by
  intro opts program
  let dial := cfDial "kws2.example.com" "/apiws" true false 10 false
  let host := "kws2.example.com"
  let request := dial.request host
  let calls : Trace (stackSig Nat Unit Unit) :=
    [⟨.inl .fetchAdd, 0⟩, ⟨.inl (.entries false), fun _ => none⟩, ⟨.inl .now, 5⟩,
      ⟨.inr (.inr (.tcpConnect (toString 1).toList 443)), none⟩,
      ⟨.inl .now, 7⟩, ⟨.inl (.insert false 1 67), ()⟩,
      ⟨.inr (.inr (.tcpConnect (toString 2).toList 443)), some (.ok ())⟩,
      ⟨.inr (.inl (.clientRequest dial.url)), .ok host⟩,
      ⟨.inr (.inl (.upgrade (dial.security request) request 10)), some (.upgraded () 101)⟩,
      ⟨.inl (.remove false 2), ()⟩]
  have hrun : Runs (program.link (dialEdge Outbound.nameReader ⟨none, none⟩)) calls
      (some (.connected ())) := by
    iterate 10 refine @Runs.call (stackSig Nat Unit Unit) _ _ _ _ _ _ ?_
    exact .pure _
  obtain ⟨visits, hopened, -, hmap⟩ := edge_cooldown_observed Outbound.nameReader ⟨none, none⟩
    "kws2.example.com" "/apiws" true false 10 opts (by decide) hrun
  refine ⟨calls, visits, hrun, rfl, hopened, ?_, ?_⟩
  · exact (congrFun (hmap fun _ => some 3) 1).symm
  · exact (congrFun (hmap fun _ => some 3) 2).symm

end TgWsProxy.Transport
