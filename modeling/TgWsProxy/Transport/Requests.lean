import TgWsProxy.Foundation.Guard
import TgWsProxy.Pool.Direct
import TgWsProxy.Routing.Traversal

/-!
# What routing asks for

Whichever way a connection is routed, the calls it makes carry the settings of the
configuration: the address and the names of its own data centre, the fronting domain,
and the two switches for TLS.
-/

namespace TgWsProxy.Routing

open Foundation.Effect TgWsProxy.Cloudflare TgWsProxy.Pool
open Foundation.Effect.Program (Only)

variable {Ws Conn : Type}

/-- The settings that the calls of a connection carry. -/
def Op.Configured (config : Config) (key : PoolKey) (targetIp : Option String) : Op → Prop
  | .connectWs ip domain skipTlsVerify _ sniOverride =>
      targetIp = some ip ∧ domain ∈ wsDomains key.1 key.2 ∧
        skipTlsVerify = config.skipTlsVerify ∧ sniOverride = config.frontingDomain
  | .connectCf _ _ _ skipTlsVerify _ disableTls _ =>
      skipTlsVerify = config.skipTlsVerify ∧ disableTls = config.cfDisableTls
  | .poolGet dc isMedia ip skipTlsVerify _ =>
      (dc, isMedia) = key ∧ targetIp = some ip ∧ skipTlsVerify = config.skipTlsVerify
  | .active _ | .set _ _ | .clear _ | .fetchAdd _ | .cfGet _ _ _ | .cfPrefetch _
  | .connectMtproto _ _ _ _ => True

theorem websocketDc_idem (dc : Nat) : websocketDc (websocketDc dc) = websocketDc dc := by
  by_cases hdc : dc = 203
  · subst hdc
    rfl
  · have hsame : websocketDc dc = dc := by
      simp [websocketDc, dcOverrides, beq_eq_false_iff_ne.mpr hdc]
    rw [hsame, hsame]

/-- The walk over the hostnames of a data centre. -/
theorem connectWsDomains_only {ip : String} {skipTlsVerify : Bool} {timeout : Nat}
    {sniOverride : Option String} {kind : Op → Prop} {domains : List String}
    (hdomains : ∀ domain ∈ domains, kind (.connectWs ip domain skipTlsVerify timeout sniOverride))
    (attempt : WsAttempt Ws) :
    Only kind (connectWsDomains ip skipTlsVerify timeout sniOverride domains attempt :
      M Ws Conn (WsAttempt Ws)) := by
  induction domains generalizing attempt with
  | nil => exact .pure _
  | cons domain rest ih =>
      obtain ⟨hdomain, hrest⟩ := List.forall_mem_cons.mp hdomains
      refine .bind (.perform hdomain) fun result => ?_
      cases result with
      | connected ws => exact .pure _
      | redirect code => exact ih hrest _
      | failed reason => exact ih hrest _
      | timedOut => exact ih hrest _
      | connectTimedOut reason => exact ih hrest _

variable (route : Route) {targetIp : Option String}

theorem directWs_configured {ip : String} (hip : targetIp = some ip) :
    Only (Op.Configured route.config (route.dc, route.isMedia) targetIp)
      (route.directWs ip : M Ws Conn (Option Ws)) := by
  refine .bind (.perform trivial) fun probing => .bind ?_ fun attempt => ?_
  · refine .bind (.perform trivial) fun cooling => connectWsDomains_only ?_ _
    intro domain hdomain
    rw [wsDomains, websocketDc_idem] at hdomain
    exact ⟨hip, hdomain, rfl, rfl⟩
  · cases attempt.ws with
    | some ws => exact .bind (.perform trivial) fun _ => .bind (.perform trivial) fun _ => .pure _
    | none =>
        refine .bind (.perform trivial) fun _ => ?_
        split
        next => exact .bind (.perform trivial) fun _ => .pure _
        next => exact .pure _

theorem configured_of_routine {op : Op} (hroutine : op.Routine route targetIp) :
    op.Configured route.config (route.dc, route.isMedia) targetIp := by
  cases op with
  | poolGet dc isMedia ip skipTlsVerify allowRefill =>
      obtain ⟨rfl, rfl, hip, hskip⟩ := hroutine
      exact ⟨rfl, hip, hskip⟩
  | connectCf => exact hroutine
  | connectWs => exact hroutine.elim
  | _ => trivial

theorem selectUpstream_configured (targetIp : Option String) :
    Only (Op.Configured route.config (route.dc, route.isMedia) targetIp)
      (route.selectUpstream targetIp : M Ws Conn (Option (Upstream Ws Conn))) := by
  have htraverses : Traverses route targetIp fun _ (program : M Ws Conn _) =>
      Only (Op.Configured route.config (route.dc, route.isMedia) targetIp) program :=
    { Only.sequential with
      routine := fun op hroutine => .perform (configured_of_routine route hroutine)
      direct := fun ip hip => directWs_configured route hip }
  exact htraverses.selectUpstream

end TgWsProxy.Routing
