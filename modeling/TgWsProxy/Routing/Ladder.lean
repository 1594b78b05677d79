import TgWsProxy.Routing.Rungs

/-!
# Climbing a ladder

A ladder is a list of rungs. A climb walks them in order, each at most once, and
ends with the first rung that connects; it fails only after all of them. Both
ladders of the program are climbs, which is shown here for the rungs they share.
-/

namespace TgWsProxy.Routing

open Foundation.Effect TgWsProxy.Cloudflare TgWsProxy.Pool
open Foundation.Effect.Program (Ensures)

variable {Ws Conn : Type}

/-- One walk of a rung: what it did and what came of it. -/
structure Walk (Ws Conn : Type) where
  rung : UpstreamTier
  trace : Trace (sig Ws Conn)
  outcome : Option (Upstream Ws Conn)

/-- The walks that make up a climb of the ladder. -/
structure Climb (walks : List (Walk Ws Conn)) (ladder : List UpstreamTier)
    (trace : Trace (sig Ws Conn)) (outcome : Option (Upstream Ws Conn)) : Prop where
  trace_eq : trace = walks.flatMap Walk.trace
  order : walks.map Walk.rung <+: ladder
  stops : walks.Pairwise fun earlier _ => earlier.outcome = none
  outcome_eq : walks.findSome? Walk.outcome = outcome
  complete : outcome = none → walks.map Walk.rung = ladder

namespace Climb

variable {walks more : List (Walk Ws Conn)} {ladder upper : List UpstreamTier}
variable {trace rest : Trace (sig Ws Conn)} {outcome : Option (Upstream Ws Conn)}

theorem nil : Climb ([] : List (Walk Ws Conn)) [] [] none :=
  ⟨rfl, List.prefix_rfl, .nil, rfl, fun _ => rfl⟩

theorem single (walk : Walk Ws Conn) : Climb [walk] [walk.rung] walk.trace walk.outcome :=
  ⟨by simp, List.prefix_rfl, List.pairwise_singleton _ _, by simp, fun _ => rfl⟩

theorem failed (hclimb : Climb walks ladder trace none) {walk : Walk Ws Conn}
    (hwalk : walk ∈ walks) : walk.outcome = none :=
  List.findSome?_eq_none_iff.mp hclimb.outcome_eq walk hwalk

/-- After a ladder that failed the next one is climbed. -/
theorem append (hclimb : Climb walks ladder trace none) (hmore : Climb more upper rest outcome) :
    Climb (walks ++ more) (ladder ++ upper) (trace ++ rest) outcome where
  trace_eq := by rw [hclimb.trace_eq, hmore.trace_eq, List.flatMap_append]
  order := by
    rw [List.map_append, hclimb.complete rfl]
    exact (List.prefix_append_right_inj ladder).mpr hmore.order
  stops := List.pairwise_append.mpr
    ⟨hclimb.stops, hmore.stops, fun _ hearlier _ _ => hclimb.failed hearlier⟩
  outcome_eq := by
    rw [List.findSome?_append, hclimb.outcome_eq, hmore.outcome_eq]
    rfl
  complete houtcome := by rw [List.map_append, hclimb.complete rfl, hmore.complete houtcome]

/-- A ladder that connected can have any rungs above. -/
theorem connected {upstream : Upstream Ws Conn} (hclimb : Climb walks ladder trace (some upstream))
    (upper : List UpstreamTier) : Climb walks (ladder ++ upper) trace (some upstream) :=
  ⟨hclimb.trace_eq, hclimb.order.trans (List.prefix_append ladder upper), hclimb.stops,
    hclimb.outcome_eq, fun houtcome => nomatch houtcome⟩

/-- The walk that connected decides. -/
theorem outcome_of_walk (hclimb : Climb walks ladder trace outcome) {walk : Walk Ws Conn}
    {upstream : Upstream Ws Conn} (hwalk : walk ∈ walks)
    (hupstream : walk.outcome = some upstream) : outcome = some upstream := by
  obtain ⟨before, after, rfl⟩ := List.append_of_mem hwalk
  -- The walks before this one failed, or the climb would have stopped at them.
  have hbefore : before.findSome? Walk.outcome = none := by
    rw [List.findSome?_eq_none_iff]
    intro earlier hearlier
    exact (List.pairwise_append.mp hclimb.stops).2.2 earlier hearlier walk List.mem_cons_self
  rw [← hclimb.outcome_eq, List.findSome?_append, hbefore, List.findSome?_cons, hupstream]
  rfl

end Climb

/-- The trace climbs the ladder in walks that all are as required. -/
def Climbs (sound : Walk Ws Conn → Prop) (ladder : List UpstreamTier)
    (trace : Trace (sig Ws Conn)) (outcome : Option (Upstream Ws Conn)) : Prop :=
  ∃ walks, (∀ walk ∈ walks, sound walk) ∧ Climb walks ladder trace outcome

namespace Climbs

variable {sound : Walk Ws Conn → Prop} {ladder upper : List UpstreamTier}
variable {trace rest : Trace (sig Ws Conn)} {outcome : Option (Upstream Ws Conn)}

theorem nil : Climbs sound [] ([] : Trace (sig Ws Conn)) none :=
  ⟨[], fun _ hmem => (List.not_mem_nil hmem).elim, .nil⟩

theorem single {rung : UpstreamTier} (hsound : sound ⟨rung, trace, outcome⟩) :
    Climbs sound [rung] trace outcome := by
  refine ⟨[⟨rung, trace, outcome⟩], ?_, .single _⟩
  intro walk hwalk
  rw [List.mem_singleton.mp hwalk]
  exact hsound

theorem append (hclimbs : Climbs sound ladder trace none)
    (hmore : Climbs sound upper rest outcome) :
    Climbs sound (ladder ++ upper) (trace ++ rest) outcome := by
  obtain ⟨walks, hsound, hclimb⟩ := hclimbs
  obtain ⟨more, hmoreSound, hmoreClimb⟩ := hmore
  refine ⟨walks ++ more, ?_, hclimb.append hmoreClimb⟩
  intro walk hwalk
  rcases List.mem_append.mp hwalk with hwalk | hwalk
  · exact hsound walk hwalk
  · exact hmoreSound walk hwalk

theorem connected {upstream : Upstream Ws Conn}
    (hclimbs : Climbs sound ladder trace (some upstream)) (upper : List UpstreamTier) :
    Climbs sound (ladder ++ upper) trace (some upstream) := by
  obtain ⟨walks, hsound, hclimb⟩ := hclimbs
  exact ⟨walks, hsound, hclimb.connected upper⟩

/-- Two ladders one after the other, as a program. -/
theorem orElse {Link : Type} {first : M Ws Conn (Option Link)}
    (toUpstream : Link → Upstream Ws Conn)
    {next : Option Link → M Ws Conn (Option (Upstream Ws Conn))}
    (hfirst : Ensures first fun trace link => Climbs sound ladder trace (link.map toUpstream))
    (hconnected : ∀ link, next (some link) = pure (some (toUpstream link)))
    (hnext : Ensures (next none) fun trace outcome => Climbs sound upper trace outcome) :
    Ensures (first >>= next) fun trace outcome =>
      Climbs sound (ladder ++ upper) trace outcome := by
  refine .bind hfirst ?_
  intro trace link hclimbs
  cases link with
  | some link =>
      rw [hconnected]
      exact .pure (hclimbs.connected upper)
  | none => exact hnext.after fun rest outcome hmore => hclimbs.append hmore

/-- A ladder whose connection is wrapped up as an upstream at the end. -/
theorem wrapped {Link : Type} {first : M Ws Conn (Option Link)}
    (toUpstream : Link → Upstream Ws Conn)
    (hfirst : Ensures first fun trace link => Climbs sound ladder trace (link.map toUpstream)) :
    Ensures (first >>= fun link => pure (link.map toUpstream)) fun trace outcome =>
      Climbs sound ladder trace outcome := by
  refine .bind hfirst ?_
  intro trace link hclimbs
  exact .pure hclimbs

/-- A ladder with a last upstream that always is there. -/
theorem withLast {first : M Ws Conn (Option (Upstream Ws Conn))} (last : Upstream Ws Conn)
    (hfirst : Ensures first fun trace outcome => Climbs sound ladder trace outcome) :
    Ensures (first >>= fun outcome => pure (some (outcome.getD last))) fun trace result =>
      ∃ outcome, Climbs sound ladder trace outcome ∧ result = some (outcome.getD last) := by
  refine .bind hfirst ?_
  intro trace outcome hclimbs
  exact .pure ⟨outcome, hclimbs, rfl⟩

theorem orElseLast {first : M Ws Conn (Option (Upstream Ws Conn))} {last : Upstream Ws Conn}
    {next : Option (Upstream Ws Conn) → M Ws Conn (Option (Upstream Ws Conn))}
    (hfirst : Ensures first fun trace outcome => Climbs sound ladder trace outcome)
    (hconnected : ∀ upstream, next (some upstream) = pure (some upstream))
    (hnext : Ensures (next none) fun trace result =>
      ∃ outcome, Climbs sound upper trace outcome ∧ result = some (outcome.getD last)) :
    Ensures (first >>= next) fun trace result =>
      ∃ outcome, Climbs sound (ladder ++ upper) trace outcome ∧
        result = some (outcome.getD last) := by
  refine .bind hfirst ?_
  intro trace outcome hclimbs
  cases outcome with
  | some upstream =>
      rw [hconnected]
      exact .pure ⟨some upstream, hclimbs.connected upper, rfl⟩
  | none =>
      refine hnext.after ?_
      rintro rest result ⟨outcome, hmore, hresult⟩
      exact ⟨outcome, hclimbs.append hmore, hresult⟩

end Climbs

/-! ## The rungs of a route -/

namespace Route

/-- Where raw TCP and the Worker tunnels lead: the built-in address of the data
centre, or else the `--dc-ip` target. -/
def destination (route : Route) (targetIp : Option String) : Option String :=
  route.fallbackIp.or targetIp

/-- The endpoints that a rung has for this connection. -/
def endpoints (route : Route) (targetIp : Option String) : UpstreamTier → List Endpoint
  | .ws =>
      match targetIp with
      | none => []
      | some targetIp =>
          (wsDomains (websocketDc route.dc) route.isMedia).map (.direct targetIp)
  | .cfworker =>
      if (route.destination targetIp).isSome then route.config.cfWorkerDomains.map .worker else []
  | .cfproxy => route.config.cfDomains.map fun domain => .record (kwsRecord route.dc domain)
  | .mtproto => route.config.mtprotoProxies.map .upstream
  | .tcp => []

/-- The Workers are dialled in rotation order and the upstream proxies as listed,
each entry of the list at most once. -/
def InOrder (route : Route) : UpstreamTier → List Endpoint → Prop
  | .cfworker, endpoints =>
      ∃ first, (route.config.cfBalance = false → first = 0) ∧
        endpoints.Sublist ((domainOrder route.config.cfWorkerDomains first).map .worker)
  | .mtproto, endpoints => endpoints.Sublist (route.config.mtprotoProxies.map .upstream)
  | .ws, _ | .cfproxy, _ | .tcp, _ => True

end Route

/-- A walk does what its rung is for. -/
structure Walk.Sound (route : Route) (targetIp : Option String) (force : Bool)
    (walk : Walk Ws Conn) : Prop
    extends RungWalked walk.rung force (route.endpoints targetIp walk.rung) walk.trace
      walk.outcome where
  order : route.InOrder walk.rung (dialled walk.trace)

section Sound

variable (route : Route) (force : Bool)

theorem directWsTier_sound (targetIp : String) :
    Ensures (route.directWsTier targetIp : M Ws Conn (Option (Upstream Ws Conn)))
      fun trace outcome => Walk.Sound route (some targetIp) force ⟨.ws, trace, outcome⟩ :=
  (directWsTier_walked route targetIp force).mono fun _ _ hwalked => ⟨hwalked, trivial⟩

theorem cfWorker_sound {targetIp : Option String}
    (hdestination : (route.destination targetIp).isSome) (dst : String) :
    Ensures (route.cfWorker dst force : M Ws Conn (Option Ws)) fun trace ws =>
      Walk.Sound route targetIp force ⟨.cfworker, trace, tunnel ws⟩ := by
  refine (cfWorker_walked route dst force).mono ?_
  rintro trace ws ⟨first, hfirst, hwalked⟩
  refine ⟨⟨hwalked.toWalked, hwalked.gated, ?_⟩, first, hfirst, hwalked.order⟩
  intro houtcome endpoint hendpoint
  simp only [Route.endpoints, hdestination, if_true] at hendpoint
  obtain ⟨domain, hdomain, rfl⟩ := List.mem_map.mp hendpoint
  exact hwalked.exhausted houtcome _ (List.mem_map_of_mem (mem_domainOrder first hdomain))

theorem cfProxy_sound (targetIp : Option String) :
    Ensures (route.cfProxy : M Ws Conn (Option Ws)) fun trace ws =>
      Walk.Sound route targetIp force ⟨.cfproxy, trace, packets ws⟩ :=
  (cfProxy_walked route force).mono fun _ _ hwalked => ⟨hwalked, trivial⟩

theorem upstreamProxies_sound (targetIp : Option String) :
    Ensures (route.upstreamProxies force : M Ws Conn (Option Conn)) fun trace conn =>
      Walk.Sound route targetIp force ⟨.mtproto, trace, conn.map .mtproto⟩ :=
  (upstreamProxies_walked route force).mono fun _ _ hwalked =>
    ⟨hwalked.toRungWalked, hwalked.order⟩

end Sound

end TgWsProxy.Routing
