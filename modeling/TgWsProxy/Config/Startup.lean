import TgWsProxy.Config.LinkSecret
import TgWsProxy.DefaultDomains.Decode

/-!
# Defaults and the pins

After parsing, `with_defaults` fills in what was not given and writes the legacy flag
`--cf-priority` out as a pin of both traffic classes. The server then downloads the default
domains, and only after that refuses a pin that names a tier without a configuration.
-/

namespace TgWsProxy

open Crypto
open Foundation (Text)
open Foundation.Hex (Codec)

def UpstreamTier.name : UpstreamTier → String
  | .ws => "ws"
  | .cfworker => "cfworker"
  | .cfproxy => "cfproxy"
  | .mtproto => "mtproto"
  | .tcp => "tcp"

/-- A parsed command line: the settings, and the flags that only startup reads. -/
structure Parsed extends Config where
  cfPriority : Bool := false
  defaultDomains : Bool := false
  check : Bool := false
  checkListener : Bool := false

/-- A Worker domain without scheme and path, or nothing if no host is left. -/
def normalizeCfWorkerDomain (domain : String) : Option String :=
  let domain := Text.trim domain.toList
  if domain.isEmpty then none
  else
    let domain := ((List.isPrefixOf? "https://".toList domain).or
      (List.isPrefixOf? "http://".toList domain)).getD domain
    let domain := List.rdropWhile (· == '/') (domain.takeWhile (· != '/'))
    if domain.isEmpty then none else some (String.ofList domain)

def defaultDcIpTargets : List (Nat × String) := [(2, "149.154.167.220"), (4, "149.154.167.220")]

namespace Config

/-- The pin that was given for one traffic class. -/
def pin (config : Config) (isMedia : Bool) : List UpstreamTier :=
  if isMedia then config.pinnedMediaUpstreams else config.pinnedUpstreams

/-- Nothing is configured behind a tier. -/
def unconfigured (config : Config) : UpstreamTier → Bool
  | .cfworker => config.cfWorkerDomains.isEmpty
  | .cfproxy => config.cfDomains.isEmpty
  | .mtproto => config.mtprotoProxies.isEmpty
  | .ws | .tcp => false

/-- Every Cloudflare tier that is configured stands before `ws`, `tcp` is the last rung,
and no tier is without a configuration. -/
def CloudflareFirst (config : Config) (tiers : List UpstreamTier) : Prop :=
  (∃ before after, tiers = before ++ .ws :: after ∧
    ∀ tier ∈ [UpstreamTier.cfworker, .cfproxy], config.unconfigured tier = false → tier ∈ before) ∧
  tiers.getLast? = some .tcp ∧
  ∀ tier ∈ tiers, config.unconfigured tier = false

def validatePinnedUpstreams (config : Config) : Except String Unit :=
  forM [("--pinned-upstream", config.pinnedUpstreams),
      ("--pinned-media-upstream", config.pinnedMediaUpstreams)] fun (flag, tiers) =>
    forM tiers fun tier =>
      if config.unconfigured tier then
        .error (flag ++ " pins the " ++ tier.name ++ " tier but nothing configures it " ++
          "(--cf-worker-domain / --cf-domain / --mtproto-proxy)")
      else pure ()

end Config

namespace Parsed

/-- `--check-listener` implies `--check`. -/
def implyCheck (parsed : Parsed) : Parsed :=
  if parsed.checkListener then { parsed with check := true } else parsed

def normalizeWorkers (parsed : Parsed) : Parsed :=
  { parsed with cfWorkerDomains := parsed.cfWorkerDomains.filterMap normalizeCfWorkerDomain }

/-- The built-in targets, unless there is a target or a Cloudflare domain. -/
def defaultTargets (parsed : Parsed) : Parsed :=
  if parsed.dcIp.isEmpty && parsed.cfDomains.isEmpty && !parsed.defaultDomains then
    { parsed with dcIp := defaultDcIpTargets }
  else parsed

/-- What the legacy flag stands for: only tiers that are configured, or that the download
of the default domains will configure. -/
def legacyPin (parsed : Parsed) : List UpstreamTier :=
  (if parsed.cfWorkerDomains.isEmpty then [] else [.cfworker]) ++
    (if !parsed.cfDomains.isEmpty || parsed.defaultDomains then [.cfproxy] else []) ++ [.ws] ++
    (if parsed.mtprotoProxies.isEmpty then [] else [.mtproto]) ++ [.tcp]

def expandCfPriority (parsed : Parsed) : Parsed :=
  if parsed.cfPriority then
    let legacy := parsed.legacyPin
    { parsed with
      pinnedUpstreams :=
        if parsed.pinnedUpstreams.isEmpty then legacy else parsed.pinnedUpstreams
      pinnedMediaUpstreams :=
        if parsed.pinnedMediaUpstreams.isEmpty then legacy else parsed.pinnedMediaUpstreams }
  else parsed

/-- `with_defaults`, which panics on a secret that is not hexadecimal. The keys and the
FakeTLS domain that it stores are those of `Started`. -/
def withDefaults (hex : Codec) (random : Block 16) (parsed : Parsed) : Option Parsed :=
  let parsed := parsed.implyCheck.normalizeWorkers
  (parsed.toConfig.withDefaultSecrets hex random).map fun started =>
    { parsed with toConfig := started.config }.defaultTargets.expandCfPriority

/-- The domains that the server appends before it looks at the pins. -/
def extendCfDomains (outcome : Except String Text) (parsed : Parsed) : Parsed :=
  if parsed.defaultDomains then
    { parsed with
      cfDomains := parsed.cfDomains ++
        (DefaultDomains.fetchDefaultDomains outcome).map String.ofList }
  else parsed

end Parsed

/-! ## Validation -/

theorem forM_eq_ok_iff {α ε : Type} {check : α → Except ε Unit} {items : List α} :
    forM items check = .ok () ↔ ∀ item ∈ items, check item = .ok () := by
  induction items with
  | nil => simp [pure, Except.pure]
  | cons item items ih =>
      rw [List.forM_cons, List.forall_mem_cons, ← ih]
      cases check item with
      | error message => simp [bind, Except.bind]
      | ok _ => simp [bind, Except.bind]

theorem Config.validatePinnedUpstreams_eq_ok_iff (config : Config) :
    config.validatePinnedUpstreams = .ok () ↔
      ∀ isMedia, ∀ tier ∈ config.pin isMedia, config.unconfigured tier = false := by
  have htier (flag : String) (tier : UpstreamTier) :
      (if config.unconfigured tier then
        .error (flag ++ " pins the " ++ tier.name ++ " tier but nothing configures it " ++
          "(--cf-worker-domain / --cf-domain / --mtproto-proxy)")
        else pure () : Except String Unit) = .ok () ↔ config.unconfigured tier = false := by
    cases config.unconfigured tier <;> simp [pure, Except.pure]
  unfold validatePinnedUpstreams
  simp only [forM_eq_ok_iff, List.forall_mem_cons, htier, List.not_mem_nil, false_imp_iff,
    implies_true, and_true, Bool.forall_bool, pin, if_true, Bool.false_eq_true, if_false]

/-! ## What the defaults change -/

/-- The settings after `with_defaults`, as far as the pins depend on them. -/
structure Defaulted (parsed ready : Parsed) : Prop where
  workers : ready.cfWorkerDomains = parsed.cfWorkerDomains.filterMap normalizeCfWorkerDomain
  domains : ready.cfDomains = parsed.cfDomains
  promised : ready.defaultDomains = parsed.defaultDomains
  proxies : ready.mtprotoProxies = parsed.mtprotoProxies
  pins : ∀ isMedia, ready.pin isMedia =
    if parsed.cfPriority ∧ parsed.pin isMedia = [] then ready.legacyPin else parsed.pin isMedia

theorem Config.withDefaultSecrets_config {hex : Codec} {random : Block 16} {config : Config}
    {started : Started hex} (hstarted : config.withDefaultSecrets hex random = some started) :
    ∃ secrets, started.config = { config with secrets } := by
  have hnormalize {settings : Config} (hsettings : settings.normalizeSecrets hex = some started) :
      started.config = settings := by
    unfold normalizeSecrets at hsettings
    split at hsettings
    next => cases hsettings; rfl
    next => cases hsettings
  unfold withDefaultSecrets at hstarted
  split at hstarted
  next => exact ⟨_, hnormalize hstarted⟩
  next => exact ⟨config.secrets, hnormalize hstarted⟩

namespace Parsed

variable {hex : Codec} {random : Block 16} {parsed ready : Parsed}

theorem implyCheck_eq (parsed : Parsed) :
    ∃ check, parsed.implyCheck = { parsed with check } := by
  unfold implyCheck
  split
  next => exact ⟨true, rfl⟩
  next => exact ⟨parsed.check, rfl⟩

theorem defaultTargets_eq (parsed : Parsed) :
    ∃ dcIp, parsed.defaultTargets = { parsed with dcIp } := by
  unfold defaultTargets
  split
  next => exact ⟨defaultDcIpTargets, rfl⟩
  next => exact ⟨parsed.dcIp, rfl⟩

/-- The expansion only writes pins, and the legacy pin does not depend on them. -/
theorem expandCfPriority_eq (parsed : Parsed) :
    ∃ pinnedUpstreams pinnedMediaUpstreams,
      parsed.expandCfPriority = { parsed with pinnedUpstreams, pinnedMediaUpstreams } ∧
      ∀ isMedia, parsed.expandCfPriority.pin isMedia =
        if parsed.cfPriority ∧ parsed.pin isMedia = [] then parsed.legacyPin
        else parsed.pin isMedia := by
  unfold expandCfPriority
  by_cases hpriority : parsed.cfPriority
  · rw [if_pos hpriority]
    refine ⟨_, _, rfl, ?_⟩
    intro isMedia
    cases isMedia <;> simp [Config.pin, hpriority]
  · rw [if_neg hpriority]
    refine ⟨parsed.pinnedUpstreams, parsed.pinnedMediaUpstreams, rfl, ?_⟩
    intro isMedia
    rw [if_neg (fun hboth => hpriority hboth.1)]

theorem defaulted_of_withDefaults (hready : parsed.withDefaults hex random = some ready) :
    Defaulted parsed ready := by
  obtain ⟨started, hstarted, rfl⟩ := Option.map_eq_some_iff.mp hready
  obtain ⟨secrets, hsecrets⟩ := Config.withDefaultSecrets_config hstarted
  obtain ⟨check, hcheck⟩ := implyCheck_eq parsed
  rw [hsecrets, hcheck]
  obtain ⟨dcIp, hdcIp⟩ := defaultTargets_eq { { parsed with check }.normalizeWorkers with secrets }
  rw [hdcIp]
  obtain ⟨pinned, pinnedMedia, hexpanded, hpins⟩ := expandCfPriority_eq
    { { parsed with check }.normalizeWorkers with secrets, dcIp }
  have hlegacy := congrArg legacyPin hexpanded
  constructor
  · rw [hexpanded]; rfl
  · rw [hexpanded]; rfl
  · rw [hexpanded]; rfl
  · rw [hexpanded]; rfl
  · intro isMedia
    rw [hpins, hlegacy]
    rfl

theorem withDefaults_isSome_iff (parsed : Parsed) :
    (parsed.withDefaults hex random).isSome ↔
      ∀ secret ∈ parsed.secrets, (hex.decode secret).isSome := by
  have hsecrets : parsed.implyCheck.normalizeWorkers.secrets = parsed.secrets := by
    obtain ⟨check, hcheck⟩ := implyCheck_eq parsed
    rw [hcheck]
    rfl
  rw [withDefaults, Option.isSome_map, Config.withDefaultSecrets_isSome_iff, hsecrets]

/-- A parsed tier has a configuration: a Worker entry that is more than a scheme, a domain
or the promise of a download, an upstream proxy. -/
def Configures (parsed : Parsed) : UpstreamTier → Prop
  | .cfworker => ∃ entry ∈ parsed.cfWorkerDomains, normalizeCfWorkerDomain entry ≠ none
  | .cfproxy => parsed.cfDomains ≠ [] ∨ parsed.defaultDomains = true
  | .mtproto => parsed.mtprotoProxies ≠ []
  | .ws | .tcp => True

/-- Every tier of an explicit pin has a configuration. -/
def PinsConfigured (parsed : Parsed) : Prop :=
  ∀ isMedia, ∀ tier ∈ parsed.pin isMedia, parsed.Configures tier

variable (outcome : Except String Text)

theorem extendCfDomains_eq (ready : Parsed) :
    ∃ cfDomains, ready.extendCfDomains outcome = { ready with cfDomains } ∧
      (cfDomains = [] ↔ ready.cfDomains = [] ∧ ready.defaultDomains = false) := by
  unfold extendCfDomains
  by_cases hpromised : ready.defaultDomains
  · rw [if_pos hpromised]
    refine ⟨_, rfl, ?_⟩
    simp [hpromised, DefaultDomains.fetchDefaultDomains_ne_nil]
  · rw [if_neg hpromised]
    exact ⟨ready.cfDomains, rfl, by simp [hpromised]⟩

/-- The download comes in time: after it, the tiers without a configuration are those that
had none on the command line. -/
theorem unconfigured_extendCfDomains (hdefaulted : Defaulted parsed ready) (tier : UpstreamTier) :
    (ready.extendCfDomains outcome).unconfigured tier = false ↔ parsed.Configures tier := by
  obtain ⟨cfDomains, hextended, hempty⟩ := extendCfDomains_eq outcome ready
  rw [hdefaulted.domains, hdefaulted.promised] at hempty
  rw [hextended]
  cases tier with
  | ws => simp [Config.unconfigured, Configures]
  | tcp => simp [Config.unconfigured, Configures]
  | mtproto => simp [Config.unconfigured, Configures, hdefaulted.proxies]
  | cfproxy => simp [Config.unconfigured, Configures, hempty, imp_iff_not_or]
  | cfworker => simp [Config.unconfigured, Configures, hdefaulted.workers]

theorem pin_extendCfDomains (ready : Parsed) (isMedia : Bool) :
    (ready.extendCfDomains outcome).pin isMedia = ready.pin isMedia := by
  obtain ⟨cfDomains, hextended, _⟩ := extendCfDomains_eq outcome ready
  rw [hextended]
  rfl

/-- The legacy pin was written before the download, and fits what is there after it. -/
theorem legacyPin_eq (ready : Parsed) :
    ready.legacyPin =
      (if (ready.extendCfDomains outcome).unconfigured .cfworker then [] else [.cfworker]) ++
        (if (ready.extendCfDomains outcome).unconfigured .cfproxy then [] else [.cfproxy]) ++
        [.ws] ++
        (if (ready.extendCfDomains outcome).unconfigured .mtproto then [] else [.mtproto]) ++
        [.tcp] := by
  obtain ⟨cfDomains, hextended, hempty⟩ := extendCfDomains_eq outcome ready
  have hproxy : (!ready.cfDomains.isEmpty || ready.defaultDomains) = !cfDomains.isEmpty := by
    rw [Bool.eq_iff_iff]
    simp [hempty, imp_iff_not_or]
  rw [hextended, legacyPin, hproxy]
  cases hcfDomains : cfDomains.isEmpty <;> simp [Config.unconfigured, hcfDomains]

theorem legacyPin_cloudflareFirst (ready : Parsed) :
    (ready.extendCfDomains outcome).CloudflareFirst ready.legacyPin := by
  rw [legacyPin_eq outcome ready]
  refine ⟨⟨_, _, List.append_assoc _ _ _ |>.trans (List.append_assoc _ _ _), ?_⟩, ?_, ?_⟩
  · intro tier htier hconfigured
    rcases List.mem_pair.mp htier with rfl | rfl
    · rw [hconfigured]
      exact List.mem_append_left _ List.mem_cons_self
    · rw [hconfigured]
      exact List.mem_append_right _ List.mem_cons_self
  · exact List.getLast?_concat
  · intro tier htier
    cases tier with
    | ws => rfl
    | tcp => rfl
    | cfworker => simpa using htier
    | cfproxy => simpa using htier
    | mtproto => simpa using htier

/-- With the legacy flag, startup accepts the pins exactly if every tier of an explicit pin
has a configuration, whatever the download of the default domains gives. A class without a
pin gets one that starts with the Cloudflare tiers; an explicit pin stays as it is. -/
theorem cf_priority_never_blocks_startup (hex : Codec) (random : Block 16) (parsed : Parsed)
    (outcome : Except String Text) (hpriority : parsed.cfPriority = true) :
    ((parsed.withDefaults hex random).isSome ↔
      ∀ secret ∈ parsed.secrets, (hex.decode secret).isSome) ∧
    ∀ ready, parsed.withDefaults hex random = some ready →
      ((ready.extendCfDomains outcome).validatePinnedUpstreams = .ok () ↔ parsed.PinsConfigured) ∧
      ∀ isMedia,
        (parsed.pin isMedia = [] → (ready.extendCfDomains outcome).CloudflareFirst
          ((ready.extendCfDomains outcome).pin isMedia)) ∧
        (parsed.pin isMedia ≠ [] →
          (ready.extendCfDomains outcome).pin isMedia = parsed.pin isMedia) := by
  refine ⟨withDefaults_isSome_iff parsed, ?_⟩
  intro ready hready
  have hdefaulted := defaulted_of_withDefaults hready
  have hempty (isMedia : Bool) (hpin : parsed.pin isMedia = []) :
      ready.pin isMedia = ready.legacyPin := by
    rw [hdefaulted.pins, if_pos ⟨hpriority, hpin⟩]
  have hexplicit (isMedia : Bool) (hpin : parsed.pin isMedia ≠ []) :
      ready.pin isMedia = parsed.pin isMedia := by
    rw [hdefaulted.pins, if_neg (fun hboth => hpin hboth.2)]
  simp only [Config.validatePinnedUpstreams_eq_ok_iff, pin_extendCfDomains]
  refine ⟨?_, fun isMedia => ⟨?_, hexplicit isMedia⟩⟩
  · simp only [unconfigured_extendCfDomains outcome hdefaulted]
    constructor
    · intro hpins isMedia tier htier
      apply hpins isMedia tier
      rw [hexplicit isMedia (List.ne_nil_of_mem htier)]
      exact htier
    · intro hpins isMedia tier htier
      by_cases hpin : parsed.pin isMedia = []
      · rw [hempty isMedia hpin] at htier
        rw [← unconfigured_extendCfDomains outcome hdefaulted]
        exact (legacyPin_cloudflareFirst outcome ready).2.2 tier htier
      · rw [hexplicit isMedia hpin] at htier
        exact hpins isMedia tier htier
  · intro hpin
    rw [hempty isMedia hpin]
    exact legacyPin_cloudflareFirst outcome ready

/-- Worker entries that come to nothing, a promised download that fails, and a pin for
media only. -/
def legacySettings : Parsed where
  secrets := []
  cfWorkerDomains := ["https://", ""]
  pinnedMediaUpstreams := [.cfproxy, .tcp]
  cfPriority := true
  defaultDomains := true

theorem cf_priority_never_blocks_startup_failed_download :
    ∃ ready, legacySettings.withDefaults Foundation.Hex.standard (List.Vector.replicate 16 0) =
        some ready ∧
      (ready.extendCfDomains (.error "timed out")).validatePinnedUpstreams = .ok () := by
  have hstartup := cf_priority_never_blocks_startup Foundation.Hex.standard
    (List.Vector.replicate 16 0) legacySettings (.error "timed out") rfl
  have hpins : legacySettings.PinsConfigured := by
    intro isMedia tier htier
    cases isMedia with
    | false => cases htier
    | true =>
        rcases List.mem_pair.mp htier with rfl | rfl
        · exact .inr rfl
        · trivial
  obtain ⟨ready, hready⟩ := Option.isSome_iff_exists.mp
    (hstartup.1.mpr fun _ hsecret => absurd hsecret List.not_mem_nil)
  exact ⟨ready, hready, (hstartup.2 ready hready).1.mpr hpins⟩

end Parsed

end TgWsProxy
