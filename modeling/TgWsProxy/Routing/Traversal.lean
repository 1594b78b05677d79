import TgWsProxy.Routing.Model

/-!
# Judgements about all of routing

A judgement that sequencing keeps holds of the routing of a connection as soon as it
holds of a direct attempt and of every other single call that routing makes. The walk
over the rungs and ladders is done here once, for all such judgements.
-/

namespace TgWsProxy.Routing

open Foundation.Effect TgWsProxy.Cloudflare TgWsProxy.Pool

variable {Ws Conn : Type}

/-- The calls that routing makes outside of a direct attempt. -/
def Op.Routine (route : Route) (targetIp : Option String) : Op → Prop
  | .set (.upstream _) _ | .set (.cfWorker _) _ => True
  | .set (.ws _ _) _ | .set (.ip _) _ | .connectWs _ _ _ _ _ => False
  | .poolGet dc isMedia ip skipTlsVerify _ =>
      dc = route.dc ∧ isMedia = route.isMedia ∧ targetIp = some ip ∧
        skipTlsVerify = route.config.skipTlsVerify
  | .connectCf _ _ _ skipTlsVerify _ disableTls _ =>
      skipTlsVerify = route.config.skipTlsVerify ∧ disableTls = route.config.cfDisableTls
  | .active _ | .clear _ | .fetchAdd _ | .cfGet _ _ _ | .cfPrefetch _
  | .connectMtproto _ _ _ _ => True

/-- What a judgement needs in order to hold of all of routing. -/
structure Traverses (route : Route) (targetIp : Option String)
    (judgement : (α : Type) → M Ws Conn α → Prop) : Prop extends Sequential judgement where
  routine : ∀ op, op.Routine route targetIp → judgement _ (request op)
  direct : ∀ ip, targetIp = some ip → judgement _ (route.directWs ip)

namespace Traverses

variable {route : Route} {targetIp : Option String}
variable {judgement : (α : Type) → M Ws Conn α → Prop}

theorem balanceOffset (htraverses : Traverses route targetIp judgement) (domains : List String)
    (enabled : Bool) (counter : CfTier) : judgement _ (balanceOffset domains enabled counter) := by
  unfold Routing.balanceOffset
  split
  next => exact htraverses.pure _
  next => exact htraverses.bind (htraverses.routine _ trivial) fun _ => htraverses.pure _

theorem walkEndpoints {Endpoint Link : Type} (htraverses : Traverses route targetIp judgement)
    {force : Bool} {key : Endpoint → CooldownKey} {cooldown : Nat}
    {dial : Endpoint → M Ws Conn (Option Link)} {onConnected : Endpoint → M Ws Conn Unit}
    (hkey : ∀ endpoint, (Op.set (key endpoint) cooldown).Routine route targetIp)
    (hdial : ∀ endpoint, judgement _ (dial endpoint))
    (hconnected : ∀ endpoint, judgement _ (onConnected endpoint)) (endpoints : List Endpoint) :
    judgement _ (walkEndpoints force key cooldown dial onConnected endpoints) := by
  induction endpoints with
  | nil => exact htraverses.pure _
  | cons endpoint rest ih =>
      have hskips : judgement _ (skips force (key endpoint)) := by
        unfold skips
        split
        next => exact htraverses.pure _
        next => exact htraverses.routine (.active _) trivial
      refine htraverses.bind hskips fun skipped => ?_
      split
      next => exact ih
      next =>
        refine htraverses.bind (hdial endpoint) fun dialed => ?_
        cases dialed with
        | some link =>
            exact htraverses.bind (htraverses.routine (.clear _) trivial) fun _ =>
              htraverses.bind (hconnected endpoint) fun _ => htraverses.pure _
        | none => exact htraverses.bind (htraverses.routine _ (hkey endpoint)) fun _ => ih

theorem cfTarget (htraverses : Traverses route targetIp judgement) (tier : CfTier)
    (dst domain : String) (rotation : List String) :
    judgement _ (route.cfTarget tier dst domain rotation) := by
  refine htraverses.bind ?_ fun _ => htraverses.pure _
  unfold Route.spareDomain
  split
  next => exact htraverses.bind (htraverses.balanceOffset _ _ _) fun _ => htraverses.pure _
  next => exact htraverses.pure _

theorem cfWorker (htraverses : Traverses route targetIp judgement) (dst : String)
    (force : Bool) : judgement _ (route.cfWorker dst force) := by
  have hdial : ∀ dst domain, judgement _ (route.connectCfWorker dst domain) := by
    intro dst domain
    refine htraverses.bind (htraverses.routine _ ⟨rfl, rfl⟩) fun result => ?_
    cases result <;> exact htraverses.pure _
  unfold Route.cfWorker
  split
  next => exact htraverses.pure _
  next =>
    refine htraverses.bind (htraverses.routine _ trivial) fun pooled => ?_
    cases pooled with
    | some pooled => exact htraverses.pure _
    | none =>
        refine htraverses.bind (htraverses.balanceOffset _ _ _) fun first => ?_
        apply htraverses.walkEndpoints
        · exact fun _ => trivial
        · exact hdial _
        · exact fun _ => htraverses.bind (htraverses.cfTarget _ _ _ _) fun _ =>
            htraverses.routine (.cfPrefetch _) trivial

theorem connectCfRecords (htraverses : Traverses route targetIp judgement)
    (attempts : CfAttempts) (allRedirects : Bool) :
    judgement _ (route.connectCfRecords attempts allRedirects) := by
  fun_induction Route.connectCfRecords route attempts allRedirects with
  | case1 => exact htraverses.pure _
  | case2 attempts allRedirects record next hnext hredirect hfailed htimedOut =>
      refine htraverses.bind (htraverses.routine _ ⟨rfl, rfl⟩) fun result => ?_
      cases result with
      | connected ws => exact htraverses.pure _
      | redirect code => exact hredirect
      | failed reason => exact hfailed
      | timedOut => exact htimedOut
      | connectTimedOut reason => exact htimedOut

theorem cfProxy (htraverses : Traverses route targetIp judgement) :
    judgement _ route.cfProxy := by
  unfold Route.cfProxy
  split
  next => exact htraverses.pure _
  next =>
    refine htraverses.bind (htraverses.balanceOffset _ _ _) fun first => ?_
    refine htraverses.bind (htraverses.routine _ trivial) fun pooled => ?_
    cases pooled with
    | some pooled => exact htraverses.pure _
    | none =>
        refine htraverses.bind (htraverses.connectCfRecords _ _) fun outcome => ?_
        obtain ⟨ws, domain, allRedirects⟩ := outcome
        cases ws with
        | none => exact htraverses.pure _
        | some ws =>
            cases domain with
            | none => exact htraverses.pure _
            | some domain =>
                exact htraverses.bind (htraverses.cfTarget _ _ _ _) fun _ =>
                  htraverses.bind (htraverses.routine (.cfPrefetch _) trivial) fun _ =>
                    htraverses.pure _

theorem upstreamProxies (htraverses : Traverses route targetIp judgement) (force : Bool) :
    judgement _ (route.upstreamProxies force) := by
  apply htraverses.walkEndpoints
  · exact fun _ => trivial
  · exact fun _ => htraverses.routine (.connectMtproto _ _ _ _) trivial
  · exact fun _ => htraverses.pure _

theorem fallbackChain (htraverses : Traverses route targetIp judgement) (dst : String) :
    judgement _ (route.fallbackChain dst) := by
  have htiers : judgement _ (route.cfTiers dst) := by
    refine htraverses.bind (htraverses.cfWorker dst false) fun tunnel => ?_
    cases tunnel with
    | some ws => exact htraverses.pure _
    | none => exact htraverses.bind htraverses.cfProxy fun _ => htraverses.pure _
  refine htraverses.bind htiers fun upstream => ?_
  cases upstream with
  | some upstream => exact htraverses.pure _
  | none => exact htraverses.bind (htraverses.upstreamProxies false) fun _ => htraverses.pure _

theorem directWsTier (htraverses : Traverses route targetIp judgement) {ip : String}
    (hip : targetIp = some ip) : judgement _ (route.directWsTier ip) := by
  refine htraverses.bind (htraverses.routine (.active _) trivial) fun cooling => ?_
  refine htraverses.bind (htraverses.routine _ ⟨rfl, rfl, hip, rfl⟩) fun pooled => ?_
  cases pooled with
  | some ws => exact htraverses.pure _
  | none => exact htraverses.bind (htraverses.direct ip hip) fun _ => htraverses.pure _

theorem pinnedTier (htraverses : Traverses route targetIp judgement) (lastResort : Bool)
    (tier : UpstreamTier) : judgement _ (route.pinnedTier targetIp lastResort tier) := by
  cases tier with
  | ws =>
      cases hip : targetIp with
      | none => exact htraverses.pure _
      | some ip => exact htraverses.directWsTier hip
  | cfworker =>
      unfold Route.pinnedTier
      cases route.fallbackIp.or targetIp with
      | none => exact htraverses.pure _
      | some dst => exact htraverses.bind (htraverses.cfWorker dst lastResort) fun _ =>
          htraverses.pure _
  | cfproxy => exact htraverses.bind htraverses.cfProxy fun _ => htraverses.pure _
  | mtproto =>
      exact htraverses.bind (htraverses.upstreamProxies lastResort) fun _ => htraverses.pure _
  | tcp =>
      unfold Route.pinnedTier
      cases route.fallbackIp.or targetIp with
      | none => exact htraverses.pure _
      | some dst => exact htraverses.pure _

theorem pinnedLadder (htraverses : Traverses route targetIp judgement)
    (tiers : List UpstreamTier) : judgement _ (route.pinnedLadder targetIp tiers) := by
  induction tiers with
  | nil => exact htraverses.pure _
  | cons tier later ih =>
      refine htraverses.bind (htraverses.pinnedTier _ tier) fun upstream => ?_
      cases upstream with
      | some upstream => exact htraverses.pure _
      | none => exact ih

theorem defaultLadder (htraverses : Traverses route targetIp judgement) :
    judgement _ (route.defaultLadder targetIp) := by
  cases hip : targetIp with
  | none =>
      unfold Route.defaultLadder
      cases route.fallbackIp with
      | none => exact htraverses.pure _
      | some fallback =>
          exact htraverses.bind (htraverses.fallbackChain fallback) fun _ => htraverses.pure _
  | some ip =>
      refine htraverses.bind (htraverses.routine (.active _) trivial) fun cooling => ?_
      split
      next =>
        refine htraverses.bind (htraverses.fallbackChain ip) fun upstream => ?_
        cases upstream with
        | some upstream => exact htraverses.pure _
        | none => exact htraverses.bind (htraverses.directWsTier hip) fun _ => htraverses.pure _
      next =>
        refine htraverses.bind (htraverses.directWsTier hip) fun direct => ?_
        cases direct with
        | some upstream => exact htraverses.pure _
        | none => exact htraverses.bind (htraverses.fallbackChain ip) fun _ => htraverses.pure _

theorem selectUpstream (htraverses : Traverses route targetIp judgement) :
    judgement _ (route.selectUpstream targetIp) := by
  unfold Route.selectUpstream
  split
  next tiers _ => exact htraverses.pinnedLadder tiers
  next => exact htraverses.defaultLadder

end Traverses

end TgWsProxy.Routing
