import TgWsProxy.Routing.Events

/-!
# What one rung does

For each rung of the ladder, what holds of every way it can run: it keeps to its
own pool and endpoints, it returns at the first connection, and when it gives up
it has dialled every endpoint that it did not find in cooldown.
-/

namespace TgWsProxy.Routing

open Foundation.Effect TgWsProxy.Cloudflare TgWsProxy.Pool
open Foundation.Effect.Program (Ensures)

variable {Ws Conn : Type}

/-- The cooldown of the endpoint was found active. -/
def FoundCooling (trace : Trace (sig Ws Conn)) (endpoint : Endpoint) : Prop :=
  ∃ key, endpoint.cooldown? = some key ∧ ⟨.active key, true⟩ ∈ trace

theorem FoundCooling.mono {first second : Trace (sig Ws Conn)} {endpoint : Endpoint}
    (hfound : FoundCooling first endpoint) (hsubset : first ⊆ second) :
    FoundCooling second endpoint := by
  obtain ⟨key, hkey, hmem⟩ := hfound
  exact ⟨key, hkey, hsubset hmem⟩

/-! ## Bookkeeping -/

theorem request_quiet {op : Op} (htier : op.tier? = none) :
    Ensures (request op : M Ws Conn _) fun trace _ => Quiet trace :=
  .perform fun _ => .cons htier .nil

theorem set_quiet (key : CooldownKey) (cooldown : Nat) :
    Ensures (set key cooldown : M Ws Conn Unit) fun trace _ => Quiet trace := request_quiet rfl

theorem clear_quiet (key : CooldownKey) :
    Ensures (clear key : M Ws Conn Unit) fun trace _ => Quiet trace := request_quiet rfl

theorem active_ensures (key : CooldownKey) :
    Ensures (active key : M Ws Conn Bool) fun trace cooling => trace = [⟨.active key, cooling⟩] :=
  .perform fun _ => rfl

theorem skips_ensures (force : Bool) (key : CooldownKey) :
    Ensures (skips force key : M Ws Conn Bool) fun trace skipped =>
      (force = true ∧ trace = [] ∧ skipped = false) ∨
        (force = false ∧ trace = [⟨.active key, skipped⟩]) := by
  cases force with
  | true => exact .pure (.inl ⟨rfl, rfl, rfl⟩)
  | false => exact (active_ensures key).mono fun trace skipped htrace => .inr ⟨rfl, htrace⟩

/-- Without balancing a walk starts at the first domain. -/
theorem balanceOffset_ensures (domains : List String) (enabled : Bool) (counter : CfTier) :
    Ensures (balanceOffset domains enabled counter : M Ws Conn Nat) fun trace first =>
      Quiet trace ∧ (enabled = false → first = 0) := by
  unfold balanceOffset
  split
  next => exact .pure ⟨.nil, fun _ => rfl⟩
  next henabled =>
    refine .bind (request_quiet rfl) ?_
    intro counted count hcounted
    refine .pure ⟨hcounted, ?_⟩
    intro hdisabled
    simp [hdisabled] at henabled

theorem balanceOffset_quiet (domains : List String) (enabled : Bool) (counter : CfTier) :
    Ensures (balanceOffset domains enabled counter : M Ws Conn Nat) fun trace _ => Quiet trace :=
  (balanceOffset_ensures domains enabled counter).mono fun _ _ hensured => hensured.1

/-- Describing a spare does nothing but take turns. -/
theorem cfTarget_additive {property : Trace (sig Ws Conn) → Prop} (hadditive : Additive property)
    (hturn : ∀ domains counter, Ensures (balanceOffset domains true counter : M Ws Conn Nat)
      fun trace _ => property trace)
    (route : Route) (tier : CfTier) (dst domain : String) (rotation : List String) :
    Ensures (route.cfTarget tier dst domain rotation : M Ws Conn CfTarget) fun trace _ =>
      property trace := by
  refine hadditive.bind ?_ fun _ => hadditive.pure _
  unfold Route.spareDomain
  split
  next => exact hadditive.bind (hturn rotation tier) fun _ => hadditive.pure _
  next => exact hadditive.pure _

theorem cfTarget_quiet (route : Route) (tier : CfTier) (dst domain : String)
    (rotation : List String) :
    Ensures (route.cfTarget tier dst domain rotation : M Ws Conn CfTarget) fun trace _ =>
      Quiet trace :=
  cfTarget_additive Quiet.additive (fun domains counter => balanceOffset_quiet domains true counter)
    route tier dst domain rotation

/-- What precedes a dial: nothing when forced, else the inactive cooldown. -/
def GatePassed (force : Bool) (key : CooldownKey) (gate : Trace (sig Ws Conn)) : Prop :=
  (force = true ∧ gate = []) ∨ (force = false ∧ gate = [⟨.active key, false⟩])

theorem GatePassed.quiet {force : Bool} {key : CooldownKey} {gate : Trace (sig Ws Conn)}
    (hgate : GatePassed force key gate) : Quiet gate := by
  rcases hgate with ⟨_, rfl⟩ | ⟨_, rfl⟩
  · exact .nil
  · exact .cons rfl .nil

/-! ## Walks of a rung -/

/-- A walk of a rung that has the given endpoints: none is dialled while it was
found cooling unless forced, and a walk that gives up has left none out unless
it was found cooling. -/
structure RungWalked (rung : UpstreamTier) (force : Bool) (endpoints : List Endpoint)
    (trace : Trace (sig Ws Conn)) (outcome : Option (Upstream Ws Conn)) : Prop
    extends Walked rung trace outcome where
  gated : force = false → Gated trace
  exhausted : outcome = none → ∀ endpoint ∈ endpoints,
    endpoint ∈ dialled trace ∨ (force = false ∧ FoundCooling trace endpoint)

namespace RungWalked

variable {rung : UpstreamTier} {force : Bool} {endpoints : List Endpoint} {endpoint : Endpoint}
variable {trace rest gate : Trace (sig Ws Conn)} {outcome : Option (Upstream Ws Conn)}
variable {key : CooldownKey} {event : Event (sig Ws Conn)}

theorem quiet (htrace : Quiet trace) : RungWalked rung force [] trace none where
  toWalked := .quiet htrace
  gated _ := .of_quiet htrace
  exhausted _ _ hmem := (List.not_mem_nil hmem).elim

/-- Asking the pool. -/
theorem ask (htier : event.op.tier? = some rung) (hendpoint : event.op.endpoint? = none) :
    RungWalked rung force [] [event] (upstream? event) where
  toWalked := .event htier
  gated _ := by
    apply Gated.of_ungated
    intro other hother
    rw [List.mem_singleton.mp hother, hendpoint]
    rfl
  exhausted _ _ hmem := (List.not_mem_nil hmem).elim

/-- One dial of an endpoint without a cooldown, whatever the answer. -/
theorem dial_ungated (hendpoint : event.op.endpoint? = some endpoint)
    (htier : event.op.tier? = some rung) (hungated : endpoint.cooldown? = none) :
    RungWalked rung force [endpoint] [event] (upstream? event) where
  toWalked := .event htier
  gated _ := by
    apply Gated.of_ungated
    intro other hother
    rw [List.mem_singleton.mp hother, hendpoint]
    exact hungated
  exhausted _ other hother := by
    rw [List.mem_singleton.mp hother]
    exact .inl (by simp [dialled, hendpoint])

/-- One dial behind its gate, whatever the answer. -/
theorem dial (hkey : endpoint.cooldown? = some key)
    (hgate : GatePassed force key gate)
    (hendpoint : event.op.endpoint? = some endpoint) (htier : event.op.tier? = some rung) :
    RungWalked rung force [endpoint] (gate ++ [event]) (upstream? event) := by
  refine ⟨(Walked.quiet hgate.quiet).append (.event htier), ?_, ?_⟩
  · intro hforce
    rcases hgate with ⟨hforced, _⟩ | ⟨_, rfl⟩
    · rw [hforced] at hforce
      cases hforce
    · apply Gated.dial
      rw [hendpoint]
      exact hkey
  · intro _ other hother
    rw [List.mem_singleton.mp hother]
    exact .inl (by simp [dialled, hendpoint])

/-- After a stretch without a connection the walk goes on. -/
theorem append {more : List Endpoint} (hwalked : RungWalked rung force endpoints trace none)
    (hrest : RungWalked rung force more rest outcome) :
    RungWalked rung force (endpoints ++ more) (trace ++ rest) outcome where
  toWalked := hwalked.toWalked.append hrest.toWalked
  gated hforce := (hwalked.gated hforce).append (hrest.gated hforce)
  exhausted houtcome other hother := by
    rw [dialled_append]
    rcases List.mem_append.mp hother with hother | hother
    · rcases hwalked.exhausted rfl other hother with hdialled | ⟨hforce, hfound⟩
      · exact .inl (List.mem_append_left _ hdialled)
      · exact .inr ⟨hforce, hfound.mono (List.subset_append_left _ _)⟩
    · rcases hrest.exhausted houtcome other hother with hdialled | ⟨hforce, hfound⟩
      · exact .inl (List.mem_append_right _ hdialled)
      · exact .inr ⟨hforce, hfound.mono (List.subset_append_right _ _)⟩

/-- Bookkeeping at the end of a walk. -/
theorem append_quiet (hwalked : RungWalked rung force endpoints trace outcome)
    (hrest : Quiet rest) : RungWalked rung force endpoints (trace ++ rest) outcome where
  toWalked := hwalked.toWalked.append_quiet hrest
  gated hforce := (hwalked.gated hforce).append (.of_quiet hrest)
  exhausted houtcome other hother := by
    rw [dialled_append, hrest.dialled_eq_nil, List.append_nil]
    rcases hwalked.exhausted houtcome other hother with hdialled | ⟨hforce, hfound⟩
    · exact .inl hdialled
    · exact .inr ⟨hforce, hfound.mono (List.subset_append_left _ _)⟩

/-- A walk that connected owes nothing to the endpoints it did not reach. -/
theorem connected {upstream : Upstream Ws Conn}
    (hwalked : RungWalked rung force endpoints trace (some upstream)) (all : List Endpoint) :
    RungWalked rung force all trace (some upstream) where
  toWalked := hwalked.toWalked
  gated := hwalked.gated
  exhausted houtcome := nomatch houtcome

end RungWalked

/-- A walk that dials the endpoints in the given order, each at most once. -/
structure EndpointsWalked (rung : UpstreamTier) (force : Bool) (endpoints : List Endpoint)
    (trace : Trace (sig Ws Conn)) (outcome : Option (Upstream Ws Conn)) : Prop
    extends RungWalked rung force endpoints trace outcome where
  order : (dialled trace).Sublist endpoints

namespace EndpointsWalked

variable {rung : UpstreamTier} {force : Bool} {endpoints : List Endpoint} {endpoint : Endpoint}
variable {trace rest gate : Trace (sig Ws Conn)} {outcome : Option (Upstream Ws Conn)}
variable {key : CooldownKey} {event : Event (sig Ws Conn)}

theorem quiet (htrace : Quiet trace) : EndpointsWalked rung force [] trace none where
  toRungWalked := .quiet htrace
  order := by rw [htrace.dialled_eq_nil]

theorem ask (htier : event.op.tier? = some rung) (hendpoint : event.op.endpoint? = none) :
    EndpointsWalked rung force [] [event] (upstream? event) where
  toRungWalked := .ask htier hendpoint
  order := by simp [dialled, hendpoint]

theorem dial (hkey : endpoint.cooldown? = some key)
    (hgate : GatePassed force key gate)
    (hendpoint : event.op.endpoint? = some endpoint) (htier : event.op.tier? = some rung) :
    EndpointsWalked rung force [endpoint] (gate ++ [event]) (upstream? event) where
  toRungWalked := .dial hkey hgate hendpoint htier
  order := by
    rw [dialled_append, hgate.quiet.dialled_eq_nil]
    simp [dialled, hendpoint]

theorem append {more : List Endpoint} (hwalked : EndpointsWalked rung force endpoints trace none)
    (hrest : EndpointsWalked rung force more rest outcome) :
    EndpointsWalked rung force (endpoints ++ more) (trace ++ rest) outcome where
  toRungWalked := hwalked.toRungWalked.append hrest.toRungWalked
  order := by
    rw [dialled_append]
    exact hwalked.order.append hrest.order

theorem append_quiet (hwalked : EndpointsWalked rung force endpoints trace outcome)
    (hrest : Quiet rest) : EndpointsWalked rung force endpoints (trace ++ rest) outcome where
  toRungWalked := hwalked.toRungWalked.append_quiet hrest
  order := by
    rw [dialled_append, hrest.dialled_eq_nil, List.append_nil]
    exact hwalked.order

/-- An endpoint in cooldown is passed over. -/
theorem skip (hwalked : EndpointsWalked rung false endpoints trace outcome)
    (hkey : endpoint.cooldown? = some key) :
    EndpointsWalked rung false (endpoint :: endpoints) ([⟨.active key, true⟩] ++ trace)
      outcome where
  toWalked := (Walked.quiet (.cons rfl .nil)).append hwalked.toWalked
  order := .cons endpoint hwalked.order
  gated hforce := (Gated.of_quiet (.cons rfl .nil)).append (hwalked.gated hforce)
  exhausted houtcome other hother := by
    rcases List.mem_cons.mp hother with rfl | hother
    · exact .inr ⟨rfl, key, hkey, List.mem_cons_self⟩
    · rcases hwalked.exhausted houtcome other hother with hdialled | ⟨hforce, hfound⟩
      · exact .inl hdialled
      · exact .inr ⟨hforce, hfound.mono (List.subset_append_right _ _)⟩

theorem connected {upstream : Upstream Ws Conn}
    (hwalked : EndpointsWalked rung force endpoints trace (some upstream))
    (more : List Endpoint) :
    EndpointsWalked rung force (endpoints ++ more) trace (some upstream) where
  toRungWalked := hwalked.toRungWalked.connected _
  order := hwalked.order.trans (List.sublist_append_left endpoints more)

end EndpointsWalked

/-! ## Lists of endpoints with a failure cooldown -/

/-- The shared loop, for a dial that is one operation on the endpoint. -/
theorem walkEndpoints_walked {Item Link : Type} {force : Bool} {key : Item → CooldownKey}
    {cooldown : Nat} {dial : Item → M Ws Conn (Option Link)}
    {onConnected : Item → M Ws Conn Unit} {rung : UpstreamTier} {endpoint : Item → Endpoint}
    {toUpstream : Link → Upstream Ws Conn}
    (hkey : ∀ item, (endpoint item).cooldown? = some (key item))
    (hdial : ∀ item, Ensures (dial item) fun trace link =>
      ∃ event, trace = [event] ∧ event.op.endpoint? = some (endpoint item) ∧
        event.op.tier? = some rung ∧ upstream? event = link.map toUpstream)
    (hconnected : ∀ item, Ensures (onConnected item) fun trace _ => Quiet trace)
    (items : List Item) :
    Ensures (walkEndpoints force key cooldown dial onConnected items) fun trace link =>
      EndpointsWalked rung force (items.map endpoint) trace (link.map toUpstream) := by
  induction items with
  | nil => exact .pure (.quiet .nil)
  | cons item rest ih =>
      rw [walkEndpoints]
      refine .bind (skips_ensures force (key item)) ?_
      intro gate skipped hgate
      cases skipped with
      | true =>
          rcases hgate with ⟨_, _, hskipped⟩ | ⟨rfl, rfl⟩
          · cases hskipped
          · rw [if_pos rfl]
            exact ih.after fun trace link hwalked => hwalked.skip (hkey item)
      | false =>
          -- The gate let the walk through, so this endpoint is dialled.
          have hgate : GatePassed force (key item) gate := by
            rcases hgate with ⟨hforce, hnil, _⟩ | hgate
            · exact .inl ⟨hforce, hnil⟩
            · exact .inr hgate
          rw [if_neg Bool.false_ne_true]
          refine .bind (hdial item) ?_
          rintro _ link ⟨event, rfl, hendpoint, htier, hupstream⟩
          have hattempt := EndpointsWalked.dial (hkey item) hgate hendpoint htier
          rw [hupstream] at hattempt
          cases link with
          | some link =>
              refine .bind (clear_quiet (key item)) ?_
              intro cleared _ hcleared
              refine .bind (hconnected item) ?_
              intro extra _ hextra
              exact .pure (((hattempt.append_quiet hcleared).append_quiet hextra).connected _)
          | none =>
              refine .bind (set_quiet (key item) cooldown) ?_
              intro noted _ hnoted
              exact ih.after fun trace link hwalked => (hattempt.append_quiet hnoted).append hwalked

/-! ## The rungs -/

theorem request_ensures (op : Op) :
    Ensures (request op : M Ws Conn _) fun trace reply => trace = [⟨op, reply⟩] :=
  .perform fun _ => rfl

/-- The first part of a walk, as an upstream with packet framing. -/
abbrev packets (ws : Option Ws) : Option (Upstream Ws Conn) := ws.map fun ws => .ws ws .packets

abbrev tunnel (ws : Option Ws) : Option (Upstream Ws Conn) := ws.map fun ws => .ws ws .tunnel

theorem connectCfWorker_ensures (route : Route) (dst domain : String) :
    Ensures (route.connectCfWorker dst domain : M Ws Conn (Option Ws)) fun trace ws =>
      ∃ event, trace = [event] ∧ event.op.endpoint? = some (.worker domain) ∧
        event.op.tier? = some .cfworker ∧
        upstream? event = ws.map fun ws => .ws ws .tunnel := by
  refine .bind (request_ensures _) ?_
  rintro _ result rfl
  cases result <;> exact .pure ⟨_, rfl, rfl, rfl, rfl⟩

theorem prefetchWorker_quiet (route : Route) (dst domain : String) :
    Ensures (route.prefetchWorker dst domain : M Ws Conn Unit) fun trace _ => Quiet trace :=
  Quiet.additive.bind (cfTarget_quiet route .worker dst domain route.config.cfWorkerDomains)
    fun _ => request_quiet rfl

theorem cfWorker_walked (route : Route) (dst : String) (force : Bool) :
    Ensures (route.cfWorker dst force : M Ws Conn (Option Ws)) fun trace ws =>
      ∃ first, (route.config.cfBalance = false → first = 0) ∧
        EndpointsWalked .cfworker force
          ((domainOrder route.config.cfWorkerDomains first).map .worker) trace (tunnel ws) := by
  unfold Route.cfWorker
  split
  next hempty =>
    refine .pure ⟨0, fun _ => rfl, ?_⟩
    rw [hempty]
    exact .quiet .nil
  next =>
    refine .bind (request_ensures _) ?_
    rintro _ pooled rfl
    have hask : EndpointsWalked .cfworker force []
        ([⟨.cfGet .worker route.dc route.isMedia, pooled⟩] : Trace (sig Ws Conn)) _ :=
      .ask rfl rfl
    cases pooled with
    | some pooled => exact .pure ⟨0, fun _ => rfl, hask.connected _⟩
    | none =>
        refine .bind (balanceOffset_ensures _ _ _) ?_
        rintro counted first ⟨hcounted, hfirst⟩
        refine (walkEndpoints_walked (fun _ => rfl) (connectCfWorker_ensures route _)
          (prefetchWorker_quiet route _) _).after ?_
        intro trace ws hwalked
        exact ⟨first, hfirst, (hask.append_quiet hcounted).append hwalked⟩

theorem upstreamProxies_walked (route : Route) (force : Bool) :
    Ensures (route.upstreamProxies force : M Ws Conn (Option Conn)) fun trace conn =>
      EndpointsWalked .mtproto force (route.config.mtprotoProxies.map .upstream) trace
        (conn.map .mtproto) := by
  apply walkEndpoints_walked
  · intro proxy
    rfl
  · intro proxy
    refine (request_ensures _).mono ?_
    rintro _ conn rfl
    exact ⟨_, rfl, rfl, rfl, rfl⟩
  · intro proxy
    exact .pure .nil

/-! ### The direct rung -/

theorem connectWsDomains_walked (ip : String) (skipTlsVerify : Bool) (timeout : Nat)
    (sniOverride : Option String) (force : Bool) (domains : List String)
    (attempt : WsAttempt Ws) (hattempt : attempt.ws = none) :
    Ensures (connectWsDomains ip skipTlsVerify timeout sniOverride domains attempt :
        M Ws Conn (WsAttempt Ws)) fun trace result =>
      RungWalked .ws force (domains.map (.direct ip)) trace (packets result.ws) := by
  induction domains generalizing attempt with
  | nil =>
      refine .pure ?_
      rw [hattempt]
      exact .quiet .nil
  | cons domain rest ih =>
      rw [connectWsDomains]
      refine .bind (request_ensures _) ?_
      rintro _ result rfl
      have hdial : RungWalked .ws force [.direct ip domain]
          ([⟨.connectWs ip domain skipTlsVerify timeout sniOverride, result⟩] :
            Trace (sig Ws Conn)) _ := .dial_ungated rfl rfl rfl
      cases result with
      | connected ws => exact .pure (hdial.connected _)
      | redirect _ | failed _ | timedOut | connectTimedOut _ =>
          refine Ensures.after (ih _ ?_) ?_
          · exact hattempt
          · intro trace result hwalked
            exact hdial.append hwalked

theorem connectWs_walked (route : Route) (targetIp : String) (force : Bool)
    {sniOverride : Option String} :
    Ensures (route.connectWs targetIp sniOverride : M Ws Conn (WsAttempt Ws)) fun trace attempt =>
      RungWalked .ws force
        ((wsDomains (websocketDc route.dc) route.isMedia).map (.direct targetIp)) trace
        (packets attempt.ws) := by
  refine .bind (active_ensures _) ?_
  rintro _ cooling rfl
  refine (connectWsDomains_walked _ _ _ _ force _ _ rfl).after ?_
  intro trace attempt hwalked
  exact (RungWalked.quiet (.cons rfl .nil)).append hwalked

theorem directWs_walked (route : Route) (targetIp : String) (force : Bool) :
    Ensures (route.directWs targetIp : M Ws Conn (Option Ws)) fun trace ws =>
      RungWalked .ws force
        ((wsDomains (websocketDc route.dc) route.isMedia).map (.direct targetIp)) trace
        (packets ws) := by
  refine .bind (active_ensures _) ?_
  rintro _ probing rfl
  refine .bind (connectWs_walked route targetIp force) ?_
  intro trace attempt hattempt
  have hprobe : Quiet ([⟨.active (.ws route.dc route.isMedia), probing⟩] :
      Trace (sig Ws Conn)) := .cons rfl .nil
  have hwalked := (RungWalked.quiet hprobe).append hattempt
  cases hws : attempt.ws with
  | some ws =>
      rw [hws] at hwalked
      refine .bind (clear_quiet _) ?_
      intro cleared _ hcleared
      refine .bind (clear_quiet _) ?_
      intro forgiven _ hforgiven
      exact .pure ((hwalked.append_quiet hcleared).append_quiet hforgiven)
  | none =>
      rw [hws] at hwalked
      refine .bind (set_quiet _ _) ?_
      intro noted _ hnoted
      split
      next =>
        refine .bind (set_quiet _ _) ?_
        intro blamed _ hblamed
        exact .pure ((hwalked.append_quiet hnoted).append_quiet hblamed)
      next => exact .pure (hwalked.append_quiet hnoted)

theorem directWsTier_walked (route : Route) (targetIp : String) (force : Bool) :
    Ensures (route.directWsTier targetIp : M Ws Conn (Option (Upstream Ws Conn)))
      fun trace outcome =>
        RungWalked .ws force
          ((wsDomains (websocketDc route.dc) route.isMedia).map (.direct targetIp)) trace
          outcome := by
  refine .bind (active_ensures _) ?_
  rintro _ cooling rfl
  refine .bind (request_ensures _) ?_
  rintro _ pooled rfl
  have hasked : RungWalked .ws force []
      ([⟨.active (.ip targetIp), cooling⟩] ++ [⟨.poolGet route.dc route.isMedia targetIp
        route.config.skipTlsVerify !cooling, pooled⟩] : Trace (sig Ws Conn)) _ :=
    (RungWalked.quiet (.cons rfl .nil)).append (.ask rfl rfl)
  cases pooled with
  | some ws => exact .pure (hasked.connected _)
  | none =>
      refine .bind (directWs_walked route targetIp force) ?_
      intro trace ws hwalked
      exact .pure (hasked.append hwalked)

/-! ### The Cloudflare proxy -/

/-- What is left of the walk over the records, when those of `seen` came before. -/
structure RecordsWalked (force : Bool) (attempts : CfAttempts) (seen : List String)
    (trace : Trace (sig Ws Conn)) (result : Option Ws × Option String × Bool) : Prop where
  walked : RungWalked .cfproxy force [] trace (packets result.1)
  answered : result.2.1.isSome = result.1.isSome
  exhausted : result.1 = none → ∀ domain ∈ attempts.domains,
    kwsRecord attempts.dc domain ∈ seen ∨
      .record (kwsRecord attempts.dc domain) ∈ dialled trace

/-- One more failed record. -/
theorem RecordsWalked.step {force : Bool} {attempts next : CfAttempts} {seen : List String}
    {record : String} {event : Event (sig Ws Conn)} {trace : Trace (sig Ws Conn)}
    {result : Option Ws × Option String × Bool}
    (hsame : next.dc = attempts.dc ∧ next.domains = attempts.domains)
    (hendpoint : event.op.endpoint? = some (.record record))
    (htier : event.op.tier? = some .cfproxy) (hfailed : upstream? event = none)
    (hrest : RecordsWalked force next (record :: seen) trace result) :
    RecordsWalked force attempts seen ([event] ++ trace) result where
  walked := by
    have hdial : RungWalked .cfproxy force [.record record] [event] (upstream? event) :=
      .dial_ungated hendpoint htier rfl
    rw [hfailed] at hdial
    have hdone := hdial.append hrest.walked
    exact ⟨hdone.toWalked, hdone.gated, fun _ _ hmem => (List.not_mem_nil hmem).elim⟩
  answered := hrest.answered
  exhausted hnone domain hdomain := by
    rw [← hsame.2] at hdomain
    have hreached := hrest.exhausted hnone domain hdomain
    rw [hsame.1] at hreached
    have hdialled : dialled [event] = [.record record] := by simp [dialled, hendpoint]
    rw [dialled_append, hdialled]
    rcases hreached with hseen | hdialled
    · rcases List.mem_cons.mp hseen with hrecord | hseen
      · rw [hrecord]
        exact .inr (List.mem_append_left _ List.mem_cons_self)
      · exact .inl hseen
    · exact .inr (List.mem_append_right _ hdialled)

theorem connectCfRecords_walked (route : Route) (force : Bool) (attempts : CfAttempts)
    (seen : List String) (allRedirects : Bool) (hcovered : attempts.Covered seen) :
    Ensures (route.connectCfRecords attempts allRedirects :
        M Ws Conn (Option Ws × Option String × Bool)) fun trace result =>
      RecordsWalked force attempts seen trace result := by
  induction hcount : attempts.remaining using Nat.strongRecOn
    generalizing attempts seen allRedirects with
  | ind count ih =>
      rw [Route.connectCfRecords]
      split
      next next hnext =>
        refine .pure ⟨.quiet .nil, rfl, ?_⟩
        intro _ domain hdomain
        exact .inl (hcovered.exhausted hnext domain hdomain)
      next record next hnext =>
        have hless := CfAttempts.nextDomain_remaining hnext
        have hsame := CfAttempts.nextDomain_record hnext
        have hcovers := hcovered.nextDomain hnext
        refine .bind (request_ensures _) ?_
        rintro _ result rfl
        cases result with
        | connected ws =>
            refine .pure ⟨?_, rfl, fun hnone => by cases hnone⟩
            have hdial : RungWalked .cfproxy force [.record record]
                ([⟨.connectCf record "/apiws" true route.config.skipTlsVerify
                  route.config.cfConnectTimeout route.config.cfDisableTls
                  route.config.cfFailCooldown, .connected ws⟩] : Trace (sig Ws Conn)) _ :=
              .dial_ungated rfl rfl rfl
            exact hdial.connected _
        | redirect _ | failed _ =>
            refine (ih _ (hcount ▸ hless) next (record :: seen) _ hcovers rfl).after ?_
            intro trace result hrest
            exact hrest.step ⟨hsame.1, hsame.2.1⟩ rfl rfl rfl
        | timedOut | connectTimedOut _ =>
            have hnoted := Nat.lt_of_le_of_lt (CfAttempts.noteTimedOut_remaining next) hless
            have hnotedSame : next.noteTimedOut.dc = attempts.dc ∧
                next.noteTimedOut.domains = attempts.domains := ⟨hsame.1, hsame.2.1⟩
            refine (ih _ (hcount ▸ hnoted) next.noteTimedOut (record :: seen) _ hcovers
              rfl).after ?_
            intro trace result hrest
            exact hrest.step hnotedSame rfl rfl rfl

theorem cfProxy_walked (route : Route) (force : Bool) :
    Ensures (route.cfProxy : M Ws Conn (Option Ws)) fun trace ws =>
      RungWalked .cfproxy force
        (route.config.cfDomains.map fun domain => .record (kwsRecord route.dc domain)) trace
        (packets ws) := by
  unfold Route.cfProxy
  split
  next hempty =>
    rw [hempty]
    exact .pure (.quiet .nil)
  next =>
    refine .bind (balanceOffset_quiet _ _ _) ?_
    intro counted first hcounted
    refine .bind (request_ensures _) ?_
    rintro _ pooled rfl
    have hasked : RungWalked .cfproxy force [] (counted ++
        [⟨.cfGet .proxy route.dc route.isMedia, pooled⟩] : Trace (sig Ws Conn)) _ :=
      (RungWalked.quiet hcounted).append (.ask rfl rfl)
    cases pooled with
    | some pooled => exact .pure (hasked.connected _)
    | none =>
        have hfresh : (CfAttempts.withOffset route.dc route.config.cfDomains first).Covered [] :=
          fun _ _ hpassed => absurd hpassed (Nat.not_lt_zero _)
        refine .bind (connectCfRecords_walked route force _ [] true hfresh) ?_
        rintro walk ⟨ws, record, allRedirects⟩ hwalk
        have hdone := hasked.append hwalk.walked
        cases ws with
        | some ws =>
            cases record with
            | none => cases hwalk.answered
            | some record =>
                refine .bind (cfTarget_quiet route .proxy "" record route.config.cfDomains) ?_
                intro described target hdescribed
                refine .bind (request_quiet rfl) ?_
                intro sent _ hsent
                exact .pure (((hdone.append_quiet hdescribed).append_quiet hsent).connected _)
        | none =>
            -- The records of all domains came up, and each that came up was dialled.
            refine .pure ⟨hdone.toWalked, hdone.gated, ?_⟩
            intro _ endpoint hendpoint
            obtain ⟨domain, hdomain, rfl⟩ := List.mem_map.mp hendpoint
            rw [dialled_append]
            rcases hwalk.exhausted rfl domain hdomain with hseen | hdialled
            · cases hseen
            · exact .inl (List.mem_append_right _ hdialled)

end TgWsProxy.Routing
