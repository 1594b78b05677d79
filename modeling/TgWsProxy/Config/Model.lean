import Mathlib.Data.List.Induction
import Mathlib.Data.List.Nodup

/-!
# Configuration

The settings that routing, the pool and the link generator read, after parsing,
and the lookups on them. Settings that only the command line, the outbound
connector or the log use are left out.
-/

namespace TgWsProxy

/-- One rung of the fallback ladder, as nameable from the command line. -/
inductive UpstreamTier
  | ws
  | cfworker
  | cfproxy
  | mtproto
  | tcp
  deriving DecidableEq, Repr

/-- An upstream MTProto proxy, without the parts of its secret that only the
handshake uses. -/
structure MtProtoProxy where
  host : String
  port : Nat
  secret : String
  deriving DecidableEq, Repr

structure Config where
  secrets : List String := []
  listenFaketlsDomain : Option String := none
  dcIp : List (Nat × String) := []
  poolSize : Nat := 4
  /-- Seconds. -/
  poolMaxAge : Nat := 55
  cfDomains : List String := []
  cfWorkerDomains : List String := []
  cfBalance : Bool := false
  cfDisableTls : Bool := false
  skipTlsVerify : Bool := false
  frontingDomain : Option String := none
  mtprotoProxies : List MtProtoProxy := []
  pinnedUpstreams : List UpstreamTier := []
  pinnedMediaUpstreams : List UpstreamTier := []
  /-- Timeouts and cooldowns, in seconds. -/
  wsConnectTimeout : Nat := 10
  wsFailProbeTimeout : Nat := 2
  wsFailCooldown : Nat := 30
  wsRedirectCooldown : Nat := 300
  ipFailCooldown : Nat := 3600
  upstreamConnectTimeout : Nat := 5
  upstreamFailCooldown : Nat := 60
  cfConnectTimeout : Nat := 10
  cfFailCooldown : Nat := 60

/-! ## Data centres -/

def defaultDcIps : List (Nat × String) :=
  [(1, "149.154.175.50"),
    (2, "149.154.167.51"),
    (3, "149.154.175.100"),
    (4, "149.154.167.91"),
    (5, "149.154.171.5"),
    (203, "91.105.192.100")]

/-- The built-in fallback address of a data centre. -/
def defaultDcIp (dc : Nat) : Option String := defaultDcIps.lookup dc

/-- Data centres that use the WebSocket names of another one. -/
def dcOverrides : List (Nat × Nat) := [(203, 2)]

/-- The data centre whose WebSocket hostname is used for `dc`. -/
def websocketDc (dc : Nat) : Nat := (dcOverrides.lookup dc).getD dc

namespace Config

/-- Collecting the pairs into a map: a repeated data centre keeps its last
address. -/
def insertRedirect (redirects : List (Nat × String)) (entry : Nat × String) :
    List (Nat × String) :=
  redirects.filter (fun other => other.1 ≠ entry.1) ++ [entry]

/-- Map of data centre to target address from `--dc-ip`, in no particular order. -/
def dcRedirects (config : Config) : List (Nat × String) :=
  config.dcIp.foldl insertRedirect []

/-- The `--dc-ip` override of a single data centre. -/
def dcTargetIp (config : Config) (dc : Nat) : Option String := config.dcIp.reverse.lookup dc

theorem mem_insertRedirect (redirects : List (Nat × String)) (entry : Nat × String) (dc : Nat) :
    dc ∈ (insertRedirect redirects entry).map Prod.fst ↔
      dc ∈ redirects.map Prod.fst ∨ dc = entry.1 := by
  by_cases hdc : dc = entry.1
  · simp [insertRedirect, hdc]
  · simp [insertRedirect, hdc]

theorem nodup_insertRedirect {redirects : List (Nat × String)}
    (hnodup : (redirects.map Prod.fst).Nodup) (entry : Nat × String) :
    ((insertRedirect redirects entry).map Prod.fst).Nodup := by
  rw [insertRedirect, List.map_append, List.nodup_append]
  refine ⟨(List.filter_sublist.map Prod.fst).nodup hnodup, List.nodup_singleton _, ?_⟩
  intro dc hdc other hother heq
  rw [List.map_singleton, List.mem_singleton] at hother
  obtain ⟨redirect, hredirect, rfl⟩ := List.mem_map.mp hdc
  simp only [List.mem_filter, decide_eq_true_eq] at hredirect
  exact hredirect.2 (heq.trans hother)

/-- Every data centre is listed once. -/
theorem nodup_dcRedirects (config : Config) : (config.dcRedirects.map Prod.fst).Nodup := by
  unfold dcRedirects
  have hfold : ∀ entries redirects : List (Nat × String), (redirects.map Prod.fst).Nodup →
      ((entries.foldl insertRedirect redirects).map Prod.fst).Nodup := by
    intro entries
    induction entries with
    | nil => exact fun _ hnodup => hnodup
    | cons entry rest ih => exact fun _ hnodup => ih _ (nodup_insertRedirect hnodup entry)
  exact hfold config.dcIp [] List.nodup_nil

theorem mem_dcRedirects (config : Config) (dc : Nat) :
    dc ∈ config.dcRedirects.map Prod.fst ↔ dc ∈ config.dcIp.map Prod.fst := by
  unfold dcRedirects
  have hfold : ∀ entries redirects : List (Nat × String),
      dc ∈ (entries.foldl insertRedirect redirects).map Prod.fst ↔
        dc ∈ redirects.map Prod.fst ∨ dc ∈ entries.map Prod.fst := by
    intro entries
    induction entries with
    | nil => simp
    | cons entry rest ih =>
        intro redirects
        rw [List.foldl_cons, ih, mem_insertRedirect, List.map_cons, List.mem_cons, or_assoc]
  simpa using hfold config.dcIp []

/-- An address is looked up for the data centres of the redirects only. -/
theorem mem_dcRedirects_of_dcTargetIp {config : Config} {dc : Nat} {ip : String}
    (htarget : config.dcTargetIp dc = some ip) : dc ∈ config.dcRedirects.map Prod.fst := by
  obtain ⟨before, after, hsplit, _⟩ := List.lookup_eq_some_iff.mp htarget
  rw [mem_dcRedirects, List.mem_map]
  refine ⟨(dc, ip), List.mem_reverse.mp ?_, rfl⟩
  rw [hsplit]
  exact List.mem_append_right _ List.mem_cons_self

/-- A redirect is what a lookup of its data centre finds. -/
theorem dcTargetIp_of_mem_dcRedirects {config : Config} {dc : Nat} {ip : String}
    (hredirect : (dc, ip) ∈ config.dcRedirects) : config.dcTargetIp dc = some ip := by
  have hentries : ∀ entries : List (Nat × String), (dc, ip) ∈ entries.foldl insertRedirect [] →
      entries.reverse.lookup dc = some ip := by
    -- The last pair of a data centre is the one that both keep.
    intro entries
    induction entries using List.reverseRecOn with
    | nil =>
        intro hmem
        cases hmem
    | append_singleton entries entry ih =>
        intro hmem
        rw [List.foldl_append, List.foldl_cons, List.foldl_nil, insertRedirect,
          List.mem_append, List.mem_filter, List.mem_singleton] at hmem
        rw [List.reverse_append, List.reverse_singleton, List.singleton_append]
        obtain ⟨other, address⟩ := entry
        rcases hmem with ⟨hmem, hother⟩ | heq
        · have hne : dc ≠ other := by simpa using hother
          rw [List.lookup_cons, beq_eq_false_iff_ne.mpr hne]
          exact ih hmem
        · cases heq
          rw [List.lookup_cons_self]
  exact hentries config.dcIp hredirect

/-- The pinned tier order for one traffic class, if any. -/
def forcedUpstreams (config : Config) (isMedia : Bool) : Option (List UpstreamTier) :=
  if isMedia ∧ config.pinnedMediaUpstreams ≠ [] then some config.pinnedMediaUpstreams
  else if config.pinnedUpstreams ≠ [] then some config.pinnedUpstreams
  else none

end Config

end TgWsProxy
