import TgWsProxy.Routing.Ladder

/-!
# The default ladder

Without a pin the direct rung comes first, then the Workers, the Cloudflare
proxy and the upstream proxies, and raw TCP at the end. A target address in
cooldown is stepped over and comes last instead. A data centre that has neither
a target nor a built-in address is not routed at all.
-/

namespace TgWsProxy.Routing

open Foundation.Effect TgWsProxy.Cloudflare TgWsProxy.Pool
open Foundation.Effect.Program (Ensures Runs execute execute_runs)

variable {Ws Conn : Type}

def fallbackRungs : List UpstreamTier := [.cfworker, .cfproxy, .mtproto]

/-- The rungs of a default run, given what the cooldown of the target address
answered. -/
def Route.ladder (route : Route) (targetIp : Option String) (cooling : Bool) :
    List UpstreamTier :=
  match targetIp with
  | none => if route.fallbackIp.isSome then fallbackRungs else []
  | some _ =>
      if cooling && route.hasFallback then fallbackRungs ++ [.ws] else [.ws] ++ fallbackRungs

/-- The question that a default run starts with. -/
def probe (targetIp : Option String) (cooling : Bool) : Trace (sig Ws Conn) :=
  match targetIp with
  | none => []
  | some targetIp => [⟨.active (.ip targetIp), cooling⟩]

theorem fallbackChain_climbs (route : Route) {targetIp : Option String}
    (hdestination : (route.destination targetIp).isSome) (dst : String) :
    Ensures (route.fallbackChain dst : M Ws Conn (Option (Upstream Ws Conn)))
      fun trace outcome =>
        Climbs (Walk.Sound route targetIp false) fallbackRungs trace outcome := by
  have hworker : Ensures (route.cfWorker dst false : M Ws Conn (Option Ws)) fun trace ws =>
      Climbs (Walk.Sound route targetIp false) [.cfworker] trace (tunnel ws) :=
    (cfWorker_sound route false hdestination dst).mono fun _ _ hsound => .single hsound
  have hproxy : Ensures (route.cfProxy : M Ws Conn (Option Ws)) fun trace ws =>
      Climbs (Walk.Sound route targetIp false) [.cfproxy] trace (packets ws) :=
    (cfProxy_sound route false targetIp).mono fun _ _ hsound => .single hsound
  have hmtproto : Ensures (route.upstreamProxies false : M Ws Conn (Option Conn)) fun trace conn =>
      Climbs (Walk.Sound route targetIp false) [.mtproto] trace (conn.map .mtproto) :=
    (upstreamProxies_sound route false targetIp).mono fun _ _ hsound => .single hsound
  have hcf : Ensures (route.cfTiers dst : M Ws Conn (Option (Upstream Ws Conn)))
      fun trace outcome =>
        Climbs (Walk.Sound route targetIp false) ([.cfworker] ++ [.cfproxy]) trace outcome :=
    .orElse _ hworker (fun _ => rfl) (.wrapped _ hproxy)
  change Ensures _ fun trace outcome =>
    Climbs _ ([.cfworker] ++ [.cfproxy] ++ [.mtproto]) trace outcome
  refine Climbs.orElse (fun upstream => upstream) ?_ (fun _ => rfl) (.wrapped _ hmtproto)
  exact hcf.mono fun trace outcome hclimbs => by rwa [Option.map_id_fun']

/-- What every run of the default ladder does: it climbs, and raw TCP is left
when the climb fails. -/
theorem defaultLadder_climbs (route : Route) (targetIp : Option String) :
    Ensures (route.defaultLadder targetIp : M Ws Conn (Option (Upstream Ws Conn)))
      fun trace result => ∃ cooling rest outcome,
        trace = probe targetIp cooling ++ rest ∧
        Climbs (Walk.Sound route targetIp false) (route.ladder targetIp cooling) rest outcome ∧
        result = (route.destination targetIp).map fun dst => outcome.getD (.tcp dst) := by
  cases targetIp with
  | none =>
      unfold Route.defaultLadder
      cases hfallback : route.fallbackIp with
      | none =>
          refine .pure ⟨false, [], none, rfl, ?_, ?_⟩
          · simp only [Route.ladder, hfallback, Option.isSome_none, Bool.false_eq_true, if_false]
            exact .nil
          · simp [Route.destination, hfallback]
      | some fallback =>
          have hdestination : route.destination none = some fallback := by
            simp [Route.destination, hfallback]
          have hsome : (route.destination none).isSome := by rw [hdestination]; rfl
          have hchain := @fallbackChain_climbs Ws Conn route none hsome fallback
          refine (Climbs.withLast (Route.tcpFallback fallback) hchain).mono ?_
          rintro trace result ⟨outcome, hclimbs, rfl⟩
          refine ⟨false, trace, outcome, rfl, ?_, ?_⟩
          · simp only [Route.ladder, hfallback, Option.isSome_some, if_true]
            exact hclimbs
          · rw [hdestination]
            rfl
  | some targetIp =>
      have hdestination : route.destination (some targetIp) =
          some (route.fallbackIp.getD targetIp) := by
        unfold Route.destination
        cases route.fallbackIp <;> rfl
      have hsome : (route.destination (some targetIp)).isSome := by rw [hdestination]; rfl
      have hdirect : Ensures (route.directWsTier targetIp :
          M Ws Conn (Option (Upstream Ws Conn))) fun trace outcome =>
            Climbs (Walk.Sound route (some targetIp) false) [.ws] trace outcome :=
        (directWsTier_sound route false targetIp).mono fun _ _ hsound => .single hsound
      have hchain := @fallbackChain_climbs Ws Conn route _ hsome targetIp
      unfold Route.defaultLadder
      refine .bind (active_ensures _) ?_
      rintro _ cooling rfl
      refine Ensures.after (?_ : Ensures _ fun trace result => ∃ outcome,
        Climbs (Walk.Sound route (some targetIp) false) (route.ladder (some targetIp) cooling) trace
          outcome ∧ result = some (outcome.getD (route.tcpLastResort targetIp))) ?_
      · -- The same two ladders in either order, as the cooldown decides.
        unfold Route.ladder
        split
        next => exact Climbs.orElseLast hchain (fun _ => rfl) (Climbs.withLast _ hdirect)
        next => exact Climbs.orElseLast hdirect (fun _ => rfl) (Climbs.withLast _ hchain)
      · rintro trace result ⟨outcome, hclimbs, rfl⟩
        refine ⟨cooling, trace, outcome, rfl, hclimbs, ?_⟩
        rw [hdestination]
        rfl

theorem ladder_nodup (route : Route) (targetIp : Option String) (cooling : Bool) :
    (route.ladder targetIp cooling).Nodup := by
  unfold Route.ladder
  split
  next => split <;> decide
  next => split <;> decide

/-- A run of the default ladder in walks of its rungs. -/
structure DefaultRun (route : Route) (targetIp : Option String) (cooling : Bool)
    (walks : List (Walk Ws Conn)) (trace : Trace (sig Ws Conn))
    (result : Option (Upstream Ws Conn)) : Prop where
  trace_eq : trace = probe targetIp cooling ++ walks.flatMap Walk.trace
  /-- The rungs are walked from the bottom of the ladder on. -/
  order : walks.map Walk.rung <+: route.ladder targetIp cooling
  once : (walks.map Walk.rung).Nodup
  /-- No walk dials through a cooldown. -/
  sound : ∀ walk ∈ walks, walk.Sound route targetIp false
  stops : walks.Pairwise fun earlier _ => earlier.outcome = none
  /-- A rung that connects is returned, with the framing of that rung. -/
  returned : ∀ walk ∈ walks, ∀ upstream, walk.outcome = some upstream →
    result = some upstream ∧ upstream.OfTier walk.rung
  /-- Raw TCP is returned only after all rungs were walked and failed. -/
  tcp : ∀ dst, result = some (.tcp dst) →
    route.destination targetIp = some dst ∧
      walks.map Walk.rung = route.ladder targetIp cooling ∧ ∀ walk ∈ walks, walk.outcome = none

/-- No rung of the default ladder produces raw TCP. -/
theorem ne_tcp_of_mem_ladder {route : Route} {targetIp : Option String} {cooling : Bool}
    {rung : UpstreamTier} (hrung : rung ∈ route.ladder targetIp cooling) : rung ≠ .tcp := by
  rintro rfl
  unfold Route.ladder at hrung
  split at hrung
  next => split at hrung <;> simp [fallbackRungs] at hrung
  next => split at hrung <;> simp [fallbackRungs] at hrung

/-- A connection with a ladder has an address for raw TCP. -/
theorem destination_of_mem_ladder {route : Route} {targetIp : Option String} {cooling : Bool}
    {rung : UpstreamTier} (hrung : rung ∈ route.ladder targetIp cooling) :
    ∃ dst, route.destination targetIp = some dst := by
  unfold Route.destination
  cases hfallback : route.fallbackIp with
  | some fallback => exact ⟨fallback, rfl⟩
  | none =>
      cases targetIp with
      | some targetIp => exact ⟨targetIp, rfl⟩
      | none => simp [Route.ladder, hfallback] at hrung

/-- Without a pin, every run of `select_upstream` in every environment is a run
of the default ladder. -/
theorem selectUpstream_default_run (route : Route) (targetIp : Option String)
    (hdefault : route.config.forcedUpstreams route.isMedia = none) {trace : Trace (sig Ws Conn)}
    {result : Option (Upstream Ws Conn)}
    (hrun : Runs (route.selectUpstream targetIp) trace result) :
    ∃ cooling walks, DefaultRun route targetIp cooling walks trace result := by
  simp only [Route.selectUpstream, hdefault] at hrun
  obtain ⟨cooling, rest, outcome, rfl, ⟨walks, hsound, hclimb⟩, rfl⟩ :=
    defaultLadder_climbs route targetIp _ _ hrun
  have honce : (walks.map Walk.rung).Nodup :=
    (ladder_nodup route targetIp cooling).sublist hclimb.order.sublist
  have hmem : ∀ walk ∈ walks, walk.rung ∈ route.ladder targetIp cooling := fun walk hwalk =>
    hclimb.order.subset (List.mem_map_of_mem hwalk)
  refine ⟨cooling, walks, by rw [hclimb.trace_eq], hclimb.order, honce, hsound, hclimb.stops,
    ?_, ?_⟩
  · intro walk hwalk upstream hupstream
    refine ⟨?_, (hsound walk hwalk).ofTier hupstream⟩
    obtain ⟨dst, hdst⟩ := destination_of_mem_ladder (hmem walk hwalk)
    rw [hdst, hclimb.outcome_of_walk hwalk hupstream]
    rfl
  · intro dst hresult
    obtain ⟨chosen, hchosen, heq⟩ := Option.map_eq_some_iff.mp hresult
    cases outcome with
    | none =>
        cases heq
        exact ⟨hchosen, hclimb.complete rfl, fun walk hwalk => hclimb.failed hwalk⟩
    | some upstream =>
        -- An upstream that a rung produced is not raw TCP.
        obtain ⟨walk, hwalk, houtcome⟩ := List.exists_of_findSome?_eq_some hclimb.outcome_eq
        have htier := (hsound walk hwalk).ofTier houtcome
        cases heq
        exact absurd htier (ne_tcp_of_mem_ladder (hmem walk hwalk))

/-- An environment in which nothing connects and every cooldown answers alike. -/
def refusing (cooling : Bool) : (op : Op) → Reply Ws Conn op
  | .active _ => cooling
  | .set _ _ | .clear _ | .cfPrefetch _ => ()
  | .fetchAdd _ => (0 : Nat)
  | .poolGet _ _ _ _ _ => none
  | .cfGet _ _ _ => none
  | .connectWs _ _ _ _ _ | .connectCf _ _ _ _ _ _ _ => .failed "refused"
  | .connectMtproto _ _ _ _ => none

def directRoute : Route where
  config := { cfWorkerDomains := ["worker.example"] }
  dc := 2
  isMedia := false
  dcIdx := 2
  proto := .intermediate

theorem selectUpstream_default_run_refused :
    ∃ trace cooling, ∃ walks : List (Walk Unit Unit),
      DefaultRun directRoute (some "149.154.167.220") cooling walks trace
        (some (.tcp "149.154.167.51")) :=
  ⟨_, selectUpstream_default_run directRoute (some "149.154.167.220") rfl
    (execute_runs (fun _ => refusing false) (directRoute.selectUpstream (some "149.154.167.220"))
      [])⟩

/-! ## Connections that are not routed -/

/-- Until the connection dials something, the cooldowns answer as they stood when
it came in. -/
def AnswersFrom (cooling : CooldownKey → Bool) (trace : Trace (sig Ws Conn)) : Prop :=
  ∀ before key reply after, trace = before ++ ⟨.active key, reply⟩ :: after →
    dialled before = [] → reply = cooling key

/-- The tiers that need no address of the data centre were tried: the Cloudflare
proxy if it is configured, and every upstream proxy that is not in cooldown. -/
def TriedAddressless (route : Route) (cooling : CooldownKey → Bool)
    (trace : Trace (sig Ws Conn)) : Prop :=
  (route.config.cfDomains ≠ [] → ∃ event ∈ trace, event.op.tier? = some .cfproxy) ∧
    ∀ proxy ∈ route.config.mtprotoProxies, cooling (.upstream (upstreamKey proxy)) = false →
      .upstream proxy ∈ dialled trace

theorem defaultLadder_unrouted {route : Route} {targetIp : Option String}
    (hdestination : route.destination targetIp = none) :
    (route.defaultLadder targetIp : M Ws Conn (Option (Upstream Ws Conn))) = pure none := by
  cases targetIp with
  | some targetIp =>
      unfold Route.destination at hdestination
      cases hfallback : route.fallbackIp <;> simp [hfallback] at hdestination
  | none =>
      have hfallback : route.fallbackIp = none := by
        simpa [Route.destination] using hdestination
      simp only [Route.defaultLadder, hfallback]

/-- Without a pin and for a given state of the cooldowns, a dropped connection
has had the Cloudflare proxy and the upstream proxies tried exactly when there is
an address for its data centre, or there was nothing to try. -/
theorem selectUpstream_dropped_iff (route : Route) (targetIp : Option String)
    (cooling : CooldownKey → Bool)
    (hdefault : route.config.forcedUpstreams route.isMedia = none) :
    (∀ trace : Trace (sig Ws Conn), AnswersFrom cooling trace →
        Runs (route.selectUpstream targetIp) trace none → TriedAddressless route cooling trace) ↔
      (route.destination targetIp).isSome ∨
        (route.config.cfDomains = [] ∧
          ∀ proxy ∈ route.config.mtprotoProxies,
            cooling (.upstream (upstreamKey proxy)) = true) := by
  simp only [Route.selectUpstream, hdefault]
  cases hdestination : route.destination targetIp with
  | some dst =>
      refine iff_of_true ?_ (.inl rfl)
      intro trace _ hrun
      obtain ⟨_, _, outcome, _, _, hresult⟩ := defaultLadder_climbs route targetIp _ _ hrun
      rw [hdestination] at hresult
      cases hresult
  | none =>
      rw [defaultLadder_unrouted hdestination]
      constructor
      · intro htried
        have hstart : AnswersFrom cooling ([] : Trace (sig Ws Conn)) := by
          intro before key reply after heq
          simp at heq
        obtain ⟨hproxy, hupstream⟩ := htried [] hstart (.pure none)
        refine .inr ⟨?_, ?_⟩
        · by_contra hdomains
          obtain ⟨event, hevent, _⟩ := hproxy hdomains
          cases hevent
        · intro proxy hmem
          by_contra hactive
          have hdialled := hupstream proxy hmem (by simpa using hactive)
          cases hdialled
      · rintro (hsome | ⟨hdomains, hcooling⟩) trace _ _
        · cases hsome
        · refine ⟨fun hne => absurd hdomains hne, ?_⟩
          intro proxy hmem hactive
          rw [hcooling proxy hmem] at hactive
          cases hactive

/-- A data centre, with a Cloudflare zone and an upstream proxy to reach it through. -/
def zoneAndProxyRoute (dc : Nat) : Route where
  config :=
    { cfDomains := ["zone.example"]
      mtprotoProxies := [⟨"proxy.example", 443, "00000000000000000000000000000000"⟩] }
  dc := dc
  isMedia := false
  dcIdx := Int16.ofNat dc
  proto := .intermediate

/-- With both ready to be tried, it is the built-in address that decides. -/
theorem selectUpstream_dropped_iff_zone_and_proxy :
    (∀ trace : Trace (sig Unit Unit), AnswersFrom (fun _ => false) trace →
      Runs ((zoneAndProxyRoute 2).selectUpstream none) trace none →
        TriedAddressless (zoneAndProxyRoute 2) (fun _ => false) trace) ∧
    ¬ ∀ trace : Trace (sig Unit Unit), AnswersFrom (fun _ => false) trace →
      Runs ((zoneAndProxyRoute 6).selectUpstream none) trace none →
        TriedAddressless (zoneAndProxyRoute 6) (fun _ => false) trace := by
  constructor
  · exact (selectUpstream_dropped_iff (zoneAndProxyRoute 2) none (fun _ => false) rfl).mpr
      (.inl rfl)
  · rw [selectUpstream_dropped_iff (zoneAndProxyRoute 6) none (fun _ => false) rfl]
    rintro (hsome | ⟨hdomains, -⟩)
    · cases hsome
    · cases hdomains

/-- A data centre without a built-in address, with a Cloudflare zone that has a
record for every data centre. -/
def zoneRoute : Route where
  config := { cfDomains := ["zone.example"] }
  dc := 6
  isMedia := false
  dcIdx := 6
  proto := .intermediate

/-- The connection is dropped at once, in every environment. -/
theorem zoneRoute_dropped :
    zoneRoute.config.forcedUpstreams zoneRoute.isMedia = none ∧
      zoneRoute.config.dcTargetIp zoneRoute.dc = none ∧
      Runs (zoneRoute.selectUpstream none : M Unit Unit (Option (Upstream Unit Unit))) [] none ∧
      ¬ TriedAddressless zoneRoute (fun _ => false) ([] : Trace (sig Unit Unit)) := by
  refine ⟨rfl, rfl, .pure none, ?_⟩
  rintro ⟨hproxy, _⟩
  obtain ⟨event, hevent, _⟩ := hproxy (by decide)
  cases hevent

end TgWsProxy.Routing
