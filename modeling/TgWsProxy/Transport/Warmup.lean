import TgWsProxy.Foundation.Handler
import TgWsProxy.Transport.Policy

/-!
# Warm-up and the buckets that clients use

The warm-up fills a bucket when the pin of its class names the direct tier at all; a
client asks for it only if its ladder gets there. A pinned ladder ends at its first `tcp`
rung, so the two agree unless a pin names `tcp` before `ws`.
-/

namespace TgWsProxy.Transport

open Foundation.Effect TgWsProxy.Cloudflare TgWsProxy.Pool TgWsProxy.Routing
open Foundation.Effect.Program (Only Runs Reaches Proceeds CanEnd CanCall)

/-! ## Who asks, and who dials -/

/-- The route of a client whose handshake carries the signed index. -/
def indexRoute (config : Config) (dcIdx : Int16) (proto : Crypto.ProtoTag) : Route where
  config := config
  dc := dcIdx.toInt.natAbs
  isMedia := decide (dcIdx.toInt < 0)
  dcIdx := dcIdx
  proto := proto

/-- From some state of the cooldown maps and with some outcomes of its dials, a client
comes to ask the pool for the bucket, with the address as its target. -/
def Asks (Ws Conn : Type) (config : Config) (key : PoolKey) (ip : String) : Prop :=
  ∃ dcIdx proto maps trace skipTlsVerify allowRefill rest final,
    Proceeds (@Cooldowns.answer Ws Conn) maps
      ((indexRoute config dcIdx proto).selectUpstream
        (config.dcTargetIp (indexRoute config dcIdx proto).dc))
      trace (.call (.poolGet key.1 key.2 ip skipTlsVerify allowRefill) rest) final

/-- The warm-up dials the address for the bucket: it has a job for it, of `pool_size`
attempts. -/
def WarmupDials (config : Config) (key : PoolKey) (ip : String) : Prop :=
  (key, ip) ∈ warmupJobs config ∧ 0 < config.poolSize

/-- The ladder of the class gets to the direct rung: there is no pin, or the pin names
`ws` before any `tcp`. -/
def GetsToWs (config : Config) (isMedia : Bool) : Prop :=
  ∀ tiers, config.forcedUpstreams isMedia = some tiers → .ws ∈ tiers.takeWhile (· ≠ .tcp)

/-- The program may dial the hostname on the direct path. -/
def DialsHost {Ws Conn α : Type} (program : M Ws Conn α) (domain : String) : Prop :=
  ∃ trace ip skipTlsVerify timeout sniOverride rest,
    Reaches program trace (.call (.connectWs ip domain skipTlsVerify timeout sniOverride) rest)

/-! ## Rungs that fail -/

section Rungs

variable {Ws Conn : Type} {route : Route}

/-- A call can be answered, and one that the maps pass on with any answer. -/
theorem canEnd_any (op : Op) (outside : Reply Ws Conn op) :
    CanEnd Cooldowns.answer (fun _ => True) (request op : M Ws Conn _) :=
  .perform fun _ => ⟨outside, trivial⟩

theorem canEnd_outside (op : Op) (outside : Reply Ws Conn op)
    (hpassed : ∀ maps : Cooldowns, (maps.answer op outside).1 = outside) :
    CanEnd Cooldowns.answer (· = outside) (request op : M Ws Conn _) :=
  .perform fun maps => ⟨outside, hpassed maps⟩

theorem balanceOffset_canEnd (domains : List String) (enabled : Bool) (counter : CfTier) :
    CanEnd Cooldowns.answer (fun _ => True)
      (Routing.balanceOffset domains enabled counter : M Ws Conn Nat) := by
  unfold Routing.balanceOffset
  split
  next => exact .pure trivial
  next =>
    refine .bind (canEnd_any (.fetchAdd counter) (0 : Nat)) ?_
    exact fun _ _ => .pure trivial

theorem walkEndpoints_canEnd {Endpoint Link : Type} {force : Bool} {key : Endpoint → CooldownKey}
    {cooldown : Nat} {dial : Endpoint → M Ws Conn (Option Link)}
    {onConnected : Endpoint → M Ws Conn Unit}
    (hdial : ∀ endpoint, CanEnd Cooldowns.answer (· = none) (dial endpoint))
    (endpoints : List Endpoint) :
    CanEnd Cooldowns.answer (· = none)
      (walkEndpoints force key cooldown dial onConnected endpoints) := by
  induction endpoints with
  | nil => exact .pure rfl
  | cons endpoint rest ih =>
      have hskips : CanEnd Cooldowns.answer (fun _ => True)
          (skips force (key endpoint) : M Ws Conn Bool) := by
        unfold skips
        split
        next => exact .pure trivial
        next => exact canEnd_any (.active _) false
      refine .bind hskips fun skipped _ => ?_
      split
      next => exact ih
      next =>
        refine .bind (hdial endpoint) ?_
        rintro _ rfl
        exact .bind (canEnd_any (.set _ _) ()) fun _ _ => ih

theorem cfWorker_canEnd (dst : String) (force : Bool) :
    CanEnd Cooldowns.answer (· = none) (route.cfWorker dst force : M Ws Conn (Option Ws)) := by
  unfold Route.cfWorker
  split
  next => exact .pure rfl
  next =>
    refine .bind (canEnd_outside (.cfGet _ _ _) none fun _ => rfl) ?_
    rintro _ rfl
    refine .bind (balanceOffset_canEnd _ _ _) fun first _ => ?_
    apply walkEndpoints_canEnd
    intro endpoint
    refine .bind (canEnd_outside (.connectCf _ _ _ _ _ _ _) WsConnectResult.timedOut
      fun _ => rfl) ?_
    rintro _ rfl
    exact .pure rfl

theorem connectCfRecords_canEnd (attempts : CfAttempts) (allRedirects : Bool) :
    CanEnd Cooldowns.answer (fun outcome => outcome.1 = none)
      (route.connectCfRecords attempts allRedirects :
        M Ws Conn (Option Ws × Option String × Bool)) := by
  fun_induction Route.connectCfRecords route attempts allRedirects with
  | case1 => exact .pure rfl
  | case2 attempts allRedirects record next hnext hredirect hfailed htimedOut =>
      refine .bind (canEnd_outside (.connectCf _ _ _ _ _ _ _) WsConnectResult.timedOut
        fun _ => rfl) ?_
      rintro _ rfl
      exact htimedOut

theorem cfProxy_canEnd :
    CanEnd Cooldowns.answer (· = none) (route.cfProxy : M Ws Conn (Option Ws)) := by
  unfold Route.cfProxy
  split
  next => exact .pure rfl
  next =>
    refine .bind (balanceOffset_canEnd _ _ _) fun first _ => ?_
    refine .bind (canEnd_outside (.cfGet _ _ _) none fun _ => rfl) ?_
    rintro _ rfl
    refine .bind (connectCfRecords_canEnd _ _) ?_
    rintro ⟨ws, domain, allRedirects⟩ hnone
    cases hnone
    exact .pure rfl

theorem upstreamProxies_canEnd (force : Bool) :
    CanEnd Cooldowns.answer (· = none)
      (route.upstreamProxies force : M Ws Conn (Option Conn)) := by
  apply walkEndpoints_canEnd
  intro endpoint
  exact canEnd_outside (.connectMtproto _ _ _ _) none fun _ => rfl

/-- A rung above the first `ws` or `tcp` can fail. -/
theorem pinnedTier_canEnd {tier : UpstreamTier} (hws : tier ≠ .ws) (htcp : tier ≠ .tcp)
    (targetIp : Option String) (lastResort : Bool) :
    CanEnd Cooldowns.answer (· = none)
      (route.pinnedTier targetIp lastResort tier : M Ws Conn (Option (Upstream Ws Conn))) := by
  cases tier with
  | ws => exact (hws rfl).elim
  | tcp => exact (htcp rfl).elim
  | cfworker =>
      unfold Route.pinnedTier
      cases route.fallbackIp.or targetIp with
      | none => exact .pure rfl
      | some dst =>
          refine .bind (cfWorker_canEnd dst lastResort) ?_
          rintro _ rfl
          exact .pure rfl
  | cfproxy =>
      refine .bind cfProxy_canEnd ?_
      rintro _ rfl
      exact .pure rfl
  | mtproto =>
      refine .bind (upstreamProxies_canEnd lastResort) ?_
      rintro _ rfl
      exact .pure rfl

end Rungs

/-! ## Ladders that ask -/

section Ladders

variable {Ws Conn : Type} {route : Route} {ip : String}

/-- The call for the bucket of a client with its target address. -/
def Op.AsksFor (key : PoolKey) (ip : String) : Op → Prop
  | .poolGet dc isMedia address _ _ => (dc, isMedia) = key ∧ address = ip
  | _ => False

theorem directWsTier_asks (route : Route) (ip : String) :
    CanCall Cooldowns.answer (Op.AsksFor (route.dc, route.isMedia) ip)
      (route.directWsTier ip : M Ws Conn (Option (Upstream Ws Conn))) := by
  refine .bind (canEnd_any (.active _) false) fun cooling _ => ?_
  refine .bind_left ?_ _
  exact .perform ⟨rfl, rfl⟩

theorem fallbackChain_canEnd (dst : String) :
    CanEnd Cooldowns.answer (· = none)
      (route.fallbackChain dst : M Ws Conn (Option (Upstream Ws Conn))) := by
  have htiers : CanEnd Cooldowns.answer (· = none)
      (route.cfTiers dst : M Ws Conn (Option (Upstream Ws Conn))) := by
    refine .bind (cfWorker_canEnd dst false) ?_
    rintro _ rfl
    refine .bind cfProxy_canEnd ?_
    rintro _ rfl
    exact .pure rfl
  refine .bind htiers ?_
  rintro _ rfl
  refine .bind (upstreamProxies_canEnd false) ?_
  rintro _ rfl
  exact .pure rfl

theorem defaultLadder_asks (route : Route) (ip : String) :
    CanCall Cooldowns.answer (Op.AsksFor (route.dc, route.isMedia) ip)
      (route.defaultLadder (some ip) : M Ws Conn (Option (Upstream Ws Conn))) := by
  refine .bind (canEnd_any (.active _) false) fun cooling _ => ?_
  split
  next =>
    refine .bind (fallbackChain_canEnd ip) ?_
    rintro _ rfl
    exact .bind_left (directWsTier_asks route ip) _
  next => exact .bind_left (directWsTier_asks route ip) _

theorem pinnedLadder_asks {tiers : List UpstreamTier} (hws : .ws ∈ tiers.takeWhile (· ≠ .tcp)) :
    CanCall Cooldowns.answer (Op.AsksFor (route.dc, route.isMedia) ip)
      (route.pinnedLadder (some ip) tiers : M Ws Conn (Option (Upstream Ws Conn))) := by
  induction tiers with
  | nil => cases hws
  | cons tier later ih =>
      by_cases htcp : tier = .tcp
      · simp [htcp] at hws
      · by_cases htier : tier = .ws
        · subst htier
          exact .bind_left (directWsTier_asks route ip) _
        · rw [List.takeWhile_cons, if_pos (by simpa using htcp), List.mem_cons] at hws
          refine .bind (pinnedTier_canEnd htier htcp (some ip) _) ?_
          rintro _ rfl
          exact ih (hws.resolve_left (Ne.symm htier))

/-- What is not a call for a bucket of the direct map. -/
def Op.NoPoolGet : Op → Prop
  | .poolGet _ _ _ _ _ => False
  | _ => True

/-- Without a target address routing asks for no bucket, and so none of its rungs above
the direct one does. -/
theorem traverses_noPoolGet (route : Route) :
    Traverses route none fun _ (program : M Ws Conn _) => Only Op.NoPoolGet program where
  toSequential := Only.sequential
  routine op hroutine := by
    apply Only.perform
    cases op with
    | poolGet dc isMedia ip skipTlsVerify allowRefill =>
        obtain ⟨-, -, hip, -⟩ := hroutine
        cases hip
    | _ => trivial
  direct ip hip := by cases hip

theorem pinnedTier_noPoolGet {tier : UpstreamTier} (hws : tier ≠ .ws) (targetIp : Option String)
    (lastResort : Bool) :
    Only Op.NoPoolGet
      (route.pinnedTier targetIp lastResort tier : M Ws Conn (Option (Upstream Ws Conn))) := by
  have htraverses := @traverses_noPoolGet Ws Conn route
  cases tier with
  | ws => exact (hws rfl).elim
  | cfworker =>
      unfold Route.pinnedTier
      cases route.fallbackIp.or targetIp with
      | none => exact .pure _
      | some dst => exact .bind (htraverses.cfWorker dst lastResort) fun _ => .pure _
  | cfproxy => exact .bind htraverses.cfProxy fun _ => .pure _
  | mtproto => exact .bind (htraverses.upstreamProxies lastResort) fun _ => .pure _
  | tcp =>
      unfold Route.pinnedTier
      cases route.fallbackIp.or targetIp with
      | none => exact .pure _
      | some dst => exact .pure _

/-- A pinned ladder that comes to `tcp` first asks for no bucket: with a target address
its `tcp` rung never fails. -/
theorem pinnedLadder_noPoolGet {tiers : List UpstreamTier}
    (hws : .ws ∉ tiers.takeWhile (· ≠ .tcp)) :
    Only Op.NoPoolGet
      (route.pinnedLadder (some ip) tiers : M Ws Conn (Option (Upstream Ws Conn))) := by
  induction tiers with
  | nil => exact .pure _
  | cons tier later ih =>
      by_cases htcp : tier = .tcp
      · subst htcp
        unfold Route.pinnedLadder Route.pinnedTier
        cases route.fallbackIp with
        | none => exact .pure _
        | some dst => exact .pure _
      · rw [List.takeWhile_cons, if_pos (by simpa using htcp), List.mem_cons, not_or] at hws
        refine .bind (pinnedTier_noPoolGet (Ne.symm hws.1) (some ip) _) fun upstream => ?_
        cases upstream with
        | some upstream => exact .pure _
        | none => exact ih hws.2

end Ladders

/-! ## The two sets -/

section Sets

variable {Ws Conn : Type} {config : Config} {key : PoolKey} {ip : String}

theorem exists_index {dc : Nat} (hdc : 1 ≤ dc ∧ dc ≤ 32767) (isMedia : Bool) :
    ∃ dcIdx : Int16, dcIdx.toInt.natAbs = dc ∧ decide (dcIdx.toInt < 0) = isMedia := by
  cases isMedia with
  | true =>
      have hindex : (Int16.ofInt (-dc)).toInt = -dc := Int16.toInt_ofInt_of_le (by omega) (by omega)
      refine ⟨Int16.ofInt (-dc), ?_, ?_⟩
      · rw [hindex]
        omega
      · rw [hindex, decide_eq_true_eq]
        omega
  | false =>
      have hindex : (Int16.ofInt dc).toInt = dc := Int16.toInt_ofInt_of_le (by omega) (by omega)
      refine ⟨Int16.ofInt dc, ?_, ?_⟩
      · rw [hindex]
        omega
      · rw [hindex, decide_eq_false_iff_not]
        omega

theorem selectUpstream_asks {route : Route} (hws : GetsToWs route.config route.isMedia) :
    CanCall Cooldowns.answer (Op.AsksFor (route.dc, route.isMedia) ip)
      (route.selectUpstream (some ip) : M Ws Conn (Option (Upstream Ws Conn))) := by
  unfold Route.selectUpstream
  split
  next tiers htiers => exact pinnedLadder_asks (hws tiers htiers)
  next => exact defaultLadder_asks route ip

theorem exists_dcTargetIp (hdcIp : config.dcIp ≠ []) :
    ∃ dc ip, config.dcTargetIp dc = some ip := by
  obtain ⟨earlier, ⟨dc, ip⟩, hentries⟩ := List.eq_nil_or_concat config.dcIp |>.resolve_left hdcIp
  refine ⟨dc, ip, ?_⟩
  unfold Config.dcTargetIp
  rw [hentries, List.concat_eq_append, List.reverse_concat, List.lookup_cons_self]

/-- The buckets that clients ask for. -/
theorem asks_iff (hdcs : ∀ entry ∈ config.dcIp, 1 ≤ entry.1 ∧ entry.1 ≤ 32767) :
    Asks Ws Conn config key ip ↔ config.dcTargetIp key.1 = some ip ∧ GetsToWs config key.2 := by
  obtain ⟨dc, isMedia⟩ := key
  constructor
  · rintro ⟨dcIdx, proto, maps, trace, skipTlsVerify, allowRefill, rest, final, hproceeds⟩
    have hreaches := hproceeds.reaches
    obtain ⟨hkey, htarget, -⟩ := (selectUpstream_configured _ _).of_reaches hreaches
    obtain ⟨rfl, rfl⟩ := Prod.mk.inj hkey
    refine ⟨htarget, ?_⟩
    intro tiers htiers
    by_contra hws
    have hladder : (indexRoute config dcIdx proto).selectUpstream
        (config.dcTargetIp (indexRoute config dcIdx proto).dc) =
        ((indexRoute config dcIdx proto).pinnedLadder (some ip) tiers :
          M Ws Conn (Option (Upstream Ws Conn))) := by
      rw [htarget]
      unfold Route.selectUpstream
      rw [show (indexRoute config dcIdx proto).config = config from rfl, htiers]
    rw [hladder] at hreaches
    exact (pinnedLadder_noPoolGet hws).of_reaches hreaches
  · rintro ⟨htarget, hws⟩
    have hdc : 1 ≤ dc ∧ dc ≤ 32767 := by
      have hmem := Config.mem_dcRedirects_of_dcTargetIp htarget
      rw [Config.mem_dcRedirects] at hmem
      obtain ⟨entry, hentry, rfl⟩ := List.mem_map.mp hmem
      exact hdcs entry hentry
    obtain ⟨dcIdx, rfl, rfl⟩ := exists_index hdc isMedia
    obtain ⟨trace, op, rest, final, hproceeds, hop⟩ :=
      @selectUpstream_asks Ws Conn ip (indexRoute config dcIdx .abridged) hws ⟨0, fun _ => none⟩
    cases op with
    | poolGet dc isMedia address skipTlsVerify allowRefill =>
        obtain ⟨hkey, rfl⟩ := hop
        cases hkey
        refine ⟨dcIdx, .abridged, ⟨0, fun _ => none⟩, trace, skipTlsVerify, allowRefill, rest,
          final, ?_⟩
        rwa [show config.dcTargetIp (indexRoute config dcIdx .abridged).dc = some address
          from htarget]
    | _ => exact hop.elim

/-- The buckets that the warm-up fills. -/
theorem warmupJobs_iff :
    (key, ip) ∈ warmupJobs config ↔ config.dcTargetIp key.1 = some ip ∧
      ∀ tiers, config.forcedUpstreams key.2 = some tiers → .ws ∈ tiers := by
  obtain ⟨dc, isMedia⟩ := key
  constructor
  · intro hjob
    refine ⟨Config.dcTargetIp_of_mem_dcRedirects (mem_dcRedirects_of_mem_warmupJobs hjob), ?_⟩
    intro tiers htiers
    obtain ⟨redirect, -, hjob⟩ := List.mem_flatMap.mp hjob
    obtain ⟨other, -, hjob⟩ := List.mem_filterMap.mp hjob
    split at hjob
    next => cases hjob
    next hpinned =>
      cases hjob
      simpa [htiers] using hpinned
  · rintro ⟨htarget, hws⟩
    obtain ⟨⟨other, address⟩, hredirect, rfl⟩ :=
      List.mem_map.mp (Config.mem_dcRedirects_of_dcTargetIp htarget)
    cases htarget.symm.trans (Config.dcTargetIp_of_mem_dcRedirects hredirect)
    refine List.mem_flatMap.mpr ⟨(other, ip), hredirect, List.mem_filterMap.mpr ⟨isMedia, ?_, ?_⟩⟩
    · cases isMedia <;> simp
    · cases hforced : config.forcedUpstreams isMedia with
      | none => simp [hforced]
      | some tiers => simp [hforced, hws tiers hforced]

end Sets

/-! ## Hostnames -/

section Hostnames

variable {Ws Conn : Type} {ip : String} {skipTlsVerify : Bool} {timeout : Nat}
variable {sniOverride : Option String} {domain : String}

/-- A dial to one of the hostnames, if the call is one. -/
def Op.HostAmong (domains : List String) : Op → Prop
  | .connectWs _ domain _ _ _ => domain ∈ domains
  | _ => True

theorem connectWsDomains_dialsHost (domains : List String) (attempt : WsAttempt Ws) :
    DialsHost (connectWsDomains ip skipTlsVerify timeout sniOverride domains attempt :
      M Ws Conn (WsAttempt Ws)) domain ↔ domain ∈ domains := by
  constructor
  · rintro ⟨trace, _, _, _, _, rest, hreaches⟩
    have honly := @connectWsDomains_only Ws Conn ip skipTlsVerify timeout sniOverride
      (Op.HostAmong domains) domains (fun _ hdomain => hdomain) attempt
    exact honly.of_reaches hreaches
  · intro hdomain
    induction domains with
    | nil => cases hdomain
    | cons first rest ih =>
        rcases List.mem_cons.mp hdomain with rfl | hdomain
        · exact ⟨[], ip, skipTlsVerify, timeout, sniOverride, _, .refl _⟩
        · -- A redirect keeps the flags.
          obtain ⟨trace, _, _, _, _, next, hreaches⟩ := ih hdomain
          have hredirect := @Runs.perform (sig Ws Conn)
            (.connectWs ip first skipTlsVerify timeout sniOverride) (WsConnectResult.redirect 302)
          exact ⟨_, _, _, _, _, next, .bind hredirect hreaches⟩

theorem connectBatch_dialsHost {Ip : Type} (runtime : Runtime Ip) (key : PoolKey) :
    DialsHost (connectBatch runtime ip key skipTlsVerify : M Ws Conn (WsAttempt Ws)) domain ↔
      domain ∈ wsDomains key.1 key.2 :=
  connectWsDomains_dialsHost _ _

theorem connectWs_dialsHost (route : Route) :
    DialsHost (route.connectWs ip sniOverride : M Ws Conn (WsAttempt Ws)) domain ↔
      domain ∈ wsDomains route.dc route.isMedia := by
  have hnames : wsDomains (websocketDc route.dc) route.isMedia =
      wsDomains route.dc route.isMedia := by
    simp only [wsDomains, websocketDc_idem]
  rw [← hnames]
  constructor
  · rintro ⟨trace, _, _, _, _, rest, hreaches⟩
    cases hreaches with
    | call reply hreaches =>
        exact (connectWsDomains_dialsHost _ _).mp ⟨_, _, _, _, _, rest, hreaches⟩
  · intro hdomain
    obtain ⟨trace, _, _, _, _, rest, hreaches⟩ :=
      (@connectWsDomains_dialsHost Ws Conn ip route.config.skipTlsVerify
        route.config.wsConnectTimeout sniOverride domain
        (wsDomains (websocketDc route.dc) route.isMedia) ⟨none, true, false, false⟩).mpr hdomain
    have hcalm := @Runs.perform (sig Ws Conn) (.active (.ws route.dc route.isMedia)) false
    exact ⟨_, _, _, _, _, rest, .bind hcalm hreaches⟩

end Hostnames

/-- The warm-up dials for exactly the buckets that clients ask for, unless there are
targets and a pin names `tcp` before `ws`. For every bucket, the warm-up and the refills
try the same hostnames as the inline connect of a client. -/
theorem warmup_fills_asked_buckets_iff (Ws Conn : Type) {Ip : Type} (settings : Settings Ip)
    (hpool : 1 ≤ settings.config.poolSize)
    (hdcs : ∀ entry ∈ settings.config.dcIp, 1 ≤ entry.1 ∧ entry.1 ≤ 32767) :
    ((∀ key ip, WarmupDials settings.config key ip ↔ Asks Ws Conn settings.config key ip) ↔
      settings.config.dcIp = [] ∨ ∀ isMedia tiers,
        settings.config.forcedUpstreams isMedia = some tiers → .ws ∈ tiers →
          .ws ∈ tiers.takeWhile (· ≠ .tcp)) ∧
    ∀ (route : Route) (ip domain : String) (skipTls : Bool) (sniOverride : Option String),
      DialsHost (connectBatch settings.runtime ip (route.dc, route.isMedia) skipTls :
          M Ws Conn (WsAttempt Ws)) domain ↔
        DialsHost (route.connectWs ip sniOverride : M Ws Conn (WsAttempt Ws)) domain := by
  constructor
  · simp only [WarmupDials, warmupJobs_iff, asks_iff hdcs]
    constructor
    · intro hsame
      by_cases hempty : settings.config.dcIp = []
      · exact .inl hempty
      · right
        intro isMedia tiers htiers hws
        obtain ⟨dc, ip, htarget⟩ := exists_dcTargetIp hempty
        refine ((hsame (dc, isMedia) ip).mp ⟨⟨htarget, ?_⟩, hpool⟩).2 tiers htiers
        intro other hother
        cases htiers.symm.trans hother
        exact hws
    · rintro hpins key ip
      constructor
      · rintro ⟨⟨htarget, hws⟩, -⟩
        refine ⟨htarget, ?_⟩
        intro tiers htiers
        rcases hpins with hempty | hpins
        · rw [Config.dcTargetIp, hempty] at htarget
          cases htarget
        · exact hpins key.2 tiers htiers (hws tiers htiers)
      · rintro ⟨htarget, hws⟩
        refine ⟨⟨htarget, ?_⟩, hpool⟩
        intro tiers htiers
        exact (List.takeWhile_prefix _).subset (hws tiers htiers)
  · intro route ip domain skipTls sniOverride
    rw [connectBatch_dialsHost, connectWs_dialsHost]

/-- One target, and the default ladders. -/
def targetSettings : Settings Nat where
  config := { dcIp := [(2, "149.154.167.220")] }
  cfIps := []
  outbound := { proxied := false, shouldBypass := fun _ _ => false }

theorem warmup_fills_asked_buckets_iff_default_ladder :
    WarmupDials targetSettings.config (2, false) "149.154.167.220" ∧
      Asks Nat Nat targetSettings.config (2, false) "149.154.167.220" := by
  have hdials : WarmupDials targetSettings.config (2, false) "149.154.167.220" :=
    ⟨by decide, by decide⟩
  have hiff := (warmup_fills_asked_buckets_iff Nat Nat targetSettings (by decide) (by decide)).1
  have hsame := hiff.mpr (.inr (by simp [Config.forcedUpstreams, targetSettings]))
  exact ⟨hdials, (hsame _ _).mp hdials⟩

/-- The pin `tcp,ws`: a connection to the target is opened for the bucket of a class that
never asks for it. -/
def tcpFirst : Config := { dcIp := [(2, "149.154.167.220")], pinnedUpstreams := [.tcp, .ws] }

theorem warmup_dials_unasked_bucket :
    WarmupDials tcpFirst (2, false) "149.154.167.220" ∧
      ¬ Asks Nat Nat tcpFirst (2, false) "149.154.167.220" := by
  constructor
  · exact ⟨by decide, by decide⟩
  · rw [asks_iff (by decide)]
    rintro ⟨-, hws⟩
    exact absurd (hws [.tcp, .ws] rfl) (by decide)

end TgWsProxy.Transport
