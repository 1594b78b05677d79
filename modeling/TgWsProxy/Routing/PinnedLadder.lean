import TgWsProxy.Routing.DefaultLadder

/-!
# Pinned ladders

A pin replaces the default order by a list of tiers. The connection climbs
exactly this list. On the last tier that can still connect, the Worker and
upstream rungs dial through their cooldown; which tier that is, is judged by a
second set of conditions next to the rungs' own.
-/

namespace TgWsProxy.Routing

open Foundation.Effect TgWsProxy.Cloudflare TgWsProxy.Pool
open Foundation.Effect.Program (Ensures Runs execute_runs)

variable {Ws Conn : Type}

/-- A walk of a pinned rung. Raw TCP needs no operation: it is there when the
connection has a destination. -/
def Walk.PinnedSound (route : Route) (targetIp : Option String) (force : Bool)
    (walk : Walk Ws Conn) : Prop :=
  if walk.rung = .tcp then
    walk.trace = [] ∧ walk.outcome = (route.destination targetIp).map .tcp
  else walk.Sound route targetIp force

/-- A rung that has no endpoints is passed without any operation. -/
theorem Walk.sound_skipped {route : Route} {targetIp : Option String} {force : Bool}
    {rung : UpstreamTier} (hnone : route.endpoints targetIp rung = []) :
    Walk.Sound route targetIp force (⟨rung, [], none⟩ : Walk Ws Conn) := by
  refine ⟨?_, ?_⟩
  · change RungWalked rung force (route.endpoints targetIp rung) [] none
    rw [hnone]
    exact .quiet .nil
  · cases rung with
    | cfworker => exact ⟨0, fun _ => rfl, List.nil_sublist _⟩
    | mtproto => exact List.nil_sublist _
    | ws | cfproxy | tcp => trivial

theorem pinnedTier_sound (route : Route) (targetIp : Option String) (force : Bool)
    (tier : UpstreamTier) :
    Ensures (route.pinnedTier targetIp force tier : M Ws Conn (Option (Upstream Ws Conn)))
      fun trace outcome => Walk.PinnedSound route targetIp force ⟨tier, trace, outcome⟩ := by
  cases tier with
  | ws =>
      cases targetIp with
      | none => exact .pure (Walk.sound_skipped rfl)
      | some targetIp => exact directWsTier_sound route force targetIp
  | cfworker =>
      unfold Route.pinnedTier
      cases hdestination : route.fallbackIp.or targetIp with
      | none =>
          refine .pure (Walk.sound_skipped ?_)
          simp [Route.endpoints, Route.destination, hdestination]
      | some dst =>
          have hsome : (route.destination targetIp).isSome := by
            rw [Route.destination, hdestination]
            rfl
          refine .bind (cfWorker_sound route force hsome dst) ?_
          intro trace ws hsound
          exact .pure hsound
  | cfproxy =>
      refine .bind (cfProxy_sound route force targetIp) ?_
      intro trace ws hsound
      exact .pure hsound
  | mtproto =>
      refine .bind (upstreamProxies_sound route force targetIp) ?_
      intro trace conn hsound
      exact .pure hsound
  | tcp =>
      unfold Route.pinnedTier
      cases hdestination : route.fallbackIp.or targetIp with
      | none =>
          refine .pure ⟨rfl, ?_⟩
          simp [Route.destination, hdestination]
      | some dst =>
          refine .pure ⟨rfl, ?_⟩
          simp [Route.destination, hdestination, Route.tcpFallback]

/-- A pinned ladder climbs the list. -/
theorem pinnedLadder_climbs (route : Route) (targetIp : Option String)
    (tiers : List UpstreamTier) :
    Ensures (route.pinnedLadder targetIp tiers : M Ws Conn (Option (Upstream Ws Conn)))
      fun trace outcome =>
        Climbs (fun walk => ∃ force, walk.PinnedSound route targetIp force) tiers trace
          outcome := by
  induction tiers with
  | nil => exact .pure .nil
  | cons tier later ih =>
      change Ensures _ fun trace outcome => Climbs _ ([tier] ++ later) trace outcome
      refine Climbs.orElse (fun upstream => upstream) ?_ (fun _ => rfl) ih
      refine (pinnedTier_sound route targetIp _ tier).mono ?_
      intro trace outcome hsound
      rw [Option.map_id_fun']
      exact .single ⟨_, hsound⟩

/-! ## A pin is obeyed -/

/-- A run of a pinned ladder in walks of its rungs. -/
structure PinnedRun (route : Route) (targetIp : Option String) (tiers : List UpstreamTier)
    (walks : List (Walk Ws Conn)) (trace : Trace (sig Ws Conn))
    (result : Option (Upstream Ws Conn)) : Prop where
  trace_eq : trace = walks.flatMap Walk.trace
  /-- The rungs are walked from the head of the list on. -/
  order : walks.map Walk.rung <+: tiers
  sound : ∀ walk ∈ walks, ∃ force, walk.PinnedSound route targetIp force
  stops : walks.Pairwise fun earlier _ => earlier.outcome = none
  /-- No pool is asked and nothing is dialled for a tier that is not listed. -/
  listed : ∀ event ∈ trace, ∀ tier, event.op.tier? = some tier → tier ∈ tiers
  /-- The rung that connects is returned, with its kind and framing. -/
  returned : ∀ upstream, result = some upstream ↔
    ∃ walk ∈ walks, walk.outcome = some upstream ∧ upstream.OfTier walk.rung
  /-- Nothing is returned when every listed rung was passed without a connection. -/
  dropped : result = none ↔ walks.map Walk.rung = tiers ∧ ∀ walk ∈ walks, walk.outcome = none

theorem Walk.PinnedSound.own {route : Route} {targetIp : Option String} {force : Bool}
    {walk : Walk Ws Conn} (hsound : walk.PinnedSound route targetIp force) :
    ∀ event ∈ walk.trace, ∀ tier, event.op.tier? = some tier → tier = walk.rung := by
  unfold Walk.PinnedSound at hsound
  split at hsound
  next =>
    rw [hsound.1]
    intro event hevent
    cases hevent
  next => exact hsound.own

theorem Walk.PinnedSound.ofTier {route : Route} {targetIp : Option String} {force : Bool}
    {walk : Walk Ws Conn} (hsound : walk.PinnedSound route targetIp force)
    {upstream : Upstream Ws Conn} (hupstream : walk.outcome = some upstream) :
    upstream.OfTier walk.rung := by
  unfold Walk.PinnedSound at hsound
  split at hsound
  next hrung =>
    rw [hsound.2] at hupstream
    obtain ⟨dst, -, rfl⟩ := Option.map_eq_some_iff.mp hupstream
    exact hrung
  next => exact hsound.toWalked.ofTier hupstream

namespace Route

/-- The pin of a connection: the media pin for media when there is one, otherwise
the base pin. -/
def pin (route : Route) : List UpstreamTier :=
  if route.isMedia ∧ route.config.pinnedMediaUpstreams ≠ [] then
    route.config.pinnedMediaUpstreams
  else route.config.pinnedUpstreams

theorem selectUpstream_eq (route : Route) (targetIp : Option String) :
    (route.selectUpstream targetIp : M Ws Conn (Option (Upstream Ws Conn))) =
      if route.pin = [] then route.defaultLadder targetIp
      else route.pinnedLadder targetIp route.pin := by
  unfold selectUpstream Config.forcedUpstreams pin
  by_cases hmedia : route.isMedia ∧ route.config.pinnedMediaUpstreams ≠ []
  · simp only [if_pos hmedia, if_neg hmedia.2]
  · by_cases hbase : route.config.pinnedUpstreams = []
    · simp [hmedia, hbase]
    · simp [hmedia, hbase]

end Route

/-- Every run of a pinned ladder climbs exactly the list, and the list that a
connection uses is its pin: the default ladder is left for an empty one. -/
theorem pinnedLadder_obeyed (route : Route) (targetIp : Option String) :
    (∀ (tiers : List UpstreamTier) (trace : Trace (sig Ws Conn))
        (result : Option (Upstream Ws Conn)),
        Runs (route.pinnedLadder targetIp tiers) trace result →
          ∃ walks, PinnedRun route targetIp tiers walks trace result) ∧
      (route.selectUpstream targetIp : M Ws Conn (Option (Upstream Ws Conn))) =
        if route.pin = [] then route.defaultLadder targetIp
        else route.pinnedLadder targetIp route.pin := by
  refine ⟨?_, route.selectUpstream_eq targetIp⟩
  intro tiers trace result hrun
  obtain ⟨walks, hsound, hclimb⟩ := pinnedLadder_climbs route targetIp tiers _ _ hrun
  refine ⟨walks, hclimb.trace_eq, hclimb.order, hsound, hclimb.stops, ?_, ?_, ?_⟩
  · intro event hevent tier htier
    rw [hclimb.trace_eq] at hevent
    obtain ⟨walk, hwalk, hevent⟩ := List.mem_flatMap.mp hevent
    obtain ⟨force, hwalkSound⟩ := hsound walk hwalk
    rw [hwalkSound.own event hevent tier htier]
    exact hclimb.order.subset (List.mem_map_of_mem hwalk)
  · intro upstream
    constructor
    · intro hresult
      obtain ⟨walk, hwalk, houtcome⟩ :=
        List.exists_of_findSome?_eq_some (hclimb.outcome_eq.trans hresult)
      obtain ⟨force, hwalkSound⟩ := hsound walk hwalk
      exact ⟨walk, hwalk, houtcome, hwalkSound.ofTier houtcome⟩
    · rintro ⟨walk, hwalk, houtcome, _⟩
      exact hclimb.outcome_of_walk hwalk houtcome
  · constructor
    · rintro rfl
      exact ⟨hclimb.complete rfl, fun walk hwalk => hclimb.failed hwalk⟩
    · rintro ⟨_, hfailed⟩
      rw [← hclimb.outcome_eq, List.findSome?_eq_none_iff]
      exact hfailed

/-! ## The last resort -/

namespace Route

/-- The skip test that a rung itself makes for a connection. -/
def passes (route : Route) (targetIp : Option String) : UpstreamTier → Bool
  | .ws => targetIp.isSome
  | .cfworker => !route.config.cfWorkerDomains.isEmpty && (route.destination targetIp).isSome
  | .cfproxy => !route.config.cfDomains.isEmpty
  | .mtproto => !route.config.mtprotoProxies.isEmpty
  | .tcp => (route.destination targetIp).isSome

/-- The two sets of conditions differ only on Workers without a destination. -/
theorem tierAttemptableAfter_iff (route : Route) (targetIp : Option String)
    (later : List UpstreamTier) :
    route.tierAttemptableAfter later targetIp = true ↔
      (∃ tier ∈ later, route.passes targetIp tier = true) ∨
        (.cfworker ∈ later ∧ route.config.cfWorkerDomains ≠ [] ∧
          route.destination targetIp = none) := by
  unfold tierAttemptableAfter
  rw [List.any_eq_true]
  constructor
  · rintro ⟨tier, hmem, hattemptable⟩
    cases tier with
    | ws | cfproxy | mtproto => exact .inl ⟨_, hmem, hattemptable⟩
    | tcp =>
        refine .inl ⟨_, hmem, ?_⟩
        simp only [passes, destination, Option.isSome_or]
        rw [Bool.or_comm]
        exact hattemptable
    | cfworker =>
        cases hdestination : route.destination targetIp with
        | none => exact .inr ⟨hmem, by simpa using hattemptable, rfl⟩
        | some dst =>
            refine .inl ⟨_, hmem, ?_⟩
            simpa [passes, hdestination] using hattemptable
  · rintro (⟨tier, hmem, hpasses⟩ | ⟨hmem, hworkers, _⟩)
    · refine ⟨tier, hmem, ?_⟩
      cases tier with
      | ws | cfproxy | mtproto => exact hpasses
      | tcp =>
          simp only [passes, destination, Option.isSome_or] at hpasses
          rw [Bool.or_comm]
          exact hpasses
      | cfworker =>
          simp only [passes, Bool.and_eq_true] at hpasses
          exact hpasses.1
    · exact ⟨_, hmem, by simpa using hworkers⟩

theorem endpoints_ne_nil (route : Route) (targetIp : Option String) {tier : UpstreamTier}
    (hpasses : route.passes targetIp tier = true) (htier : tier ≠ .tcp) :
    route.endpoints targetIp tier ≠ [] := by
  cases tier with
  | ws =>
      cases targetIp with
      | none => cases hpasses
      | some targetIp =>
          unfold endpoints wsDomains orderedRecords
          cases route.isMedia <;> simp
  | cfworker =>
      simp only [passes, Bool.and_eq_true] at hpasses
      simpa [endpoints, hpasses.2] using hpasses.1
  | cfproxy => simpa [endpoints, passes] using hpasses
  | mtproto => simpa [endpoints, passes] using hpasses
  | tcp => exact absurd rfl htier

end Route

/-- A run that ends without an upstream has passed the tier: every endpoint was
dialled, or found cooling where a later tier was thought to be attemptable. -/
structure PassedBy (route : Route) (targetIp : Option String) (tier : UpstreamTier)
    (later : List UpstreamTier) (trace : Trace (sig Ws Conn)) : Prop where
  tcp : tier = .tcp → route.destination targetIp = none
  endpoints : ∀ endpoint ∈ route.endpoints targetIp tier, endpoint ∈ dialled trace ∨
    (route.tierAttemptableAfter later targetIp = true ∧ FoundCooling trace endpoint)

theorem PassedBy.mono {route : Route} {targetIp : Option String} {tier : UpstreamTier}
    {later : List UpstreamTier} {first second : Trace (sig Ws Conn)}
    (hpassed : PassedBy route targetIp tier later first) (hsubset : first ⊆ second) :
    PassedBy route targetIp tier later second where
  tcp := hpassed.tcp
  endpoints endpoint hendpoint := by
    rcases hpassed.endpoints endpoint hendpoint with hdialled | ⟨hlater, hfound⟩
    · exact .inl (List.filterMap_subset _ hsubset hdialled)
    · exact .inr ⟨hlater, hfound.mono hsubset⟩

theorem Walk.PinnedSound.passedBy {route : Route} {targetIp : Option String}
    {tier : UpstreamTier} {later : List UpstreamTier} {trace : Trace (sig Ws Conn)}
    (hsound : Walk.PinnedSound route targetIp (!route.tierAttemptableAfter later targetIp)
      ⟨tier, trace, none⟩) : PassedBy route targetIp tier later trace := by
  unfold Walk.PinnedSound at hsound
  split at hsound
  next htcp =>
    refine ⟨fun _ => ?_, ?_⟩
    · simpa using hsound.2
    · intro endpoint hendpoint
      simp only at htcp
      simp [htcp, Route.endpoints] at hendpoint
  next htier =>
    refine ⟨fun htcp => absurd htcp htier, ?_⟩
    intro endpoint hendpoint
    rcases hsound.exhausted rfl endpoint hendpoint with hdialled | ⟨hforce, hfound⟩
    · exact .inl hdialled
    · exact .inr ⟨by simpa using hforce, hfound⟩

theorem pinnedLadder_passedBy (route : Route) (targetIp : Option String)
    (tiers : List UpstreamTier) :
    Ensures (route.pinnedLadder targetIp tiers : M Ws Conn (Option (Upstream Ws Conn)))
      fun trace outcome => outcome = none → ∀ before tier later,
        tiers = before ++ tier :: later → PassedBy route targetIp tier later trace := by
  induction tiers with
  | nil =>
      refine .pure ?_
      intro _ before tier later heq
      simp at heq
  | cons head rest ih =>
      refine .bind (pinnedTier_sound route targetIp _ head) ?_
      intro trace outcome hsound
      cases outcome with
      | some upstream => exact .pure fun hnone => nomatch hnone
      | none =>
          refine ih.after ?_
          intro more outcome hrest hnone before tier later heq
          cases before with
          | nil =>
              cases heq
              exact hsound.passedBy.mono (List.subset_append_left _ _)
          | cons _ before =>
              cases heq
              exact (hrest hnone before tier later rfl).mono (List.subset_append_right _ _)

/-- A connection attempt: a dial or a pool hit. -/
def Attempted (trace : Trace (sig Ws Conn)) : Prop :=
  ∃ event ∈ trace, event.op.endpoint?.isSome ∨ (upstream? event).isSome

theorem dialled_eq_nil_of_not_attempted {trace : Trace (sig Ws Conn)}
    (hidle : ¬ Attempted trace) : dialled trace = [] := by
  rw [dialled, List.filterMap_eq_nil_iff]
  intro event hevent
  by_contra hsome
  exact hidle ⟨event, hevent, .inl (Option.isSome_iff_ne_none.mpr hsome)⟩

/-- The pinned list strands the connection: there is no destination, so the
Workers are skipped, but they still count as attemptable after the last upstream
rung, whose proxies all are in cooldown. -/
structure Stranded (route : Route) (targetIp : Option String) (tiers : List UpstreamTier)
    (cooling : CooldownKey → Bool) : Prop where
  destination : route.destination targetIp = none
  workers : route.config.cfWorkerDomains ≠ []
  proxies : route.config.mtprotoProxies ≠ []
  unproxied : .cfproxy ∈ tiers → route.config.cfDomains = []
  last : ∃ before later, tiers = before ++ .mtproto :: later ∧ .cfworker ∈ later ∧
    .mtproto ∉ later
  cooled : ∀ proxy ∈ route.config.mtprotoProxies, cooling (.upstream (upstreamKey proxy)) = true

theorem exists_last {α : Type} {property : α → Prop} {items : List α}
    (hexists : ∃ item ∈ items, property item) :
    ∃ before item after, items = before ++ item :: after ∧ property item ∧
      ∀ later ∈ after, ¬ property later := by
  induction items with
  | nil =>
      obtain ⟨item, hmem, _⟩ := hexists
      cases hmem
  | cons head rest ih =>
      by_cases hrest : ∃ item ∈ rest, property item
      · obtain ⟨before, item, after, rfl, hitem, hafter⟩ := ih hrest
        exact ⟨head :: before, item, after, rfl, hitem, hafter⟩
      · obtain ⟨item, hmem, hitem⟩ := hexists
        rcases List.mem_cons.mp hmem with rfl | hmem
        · exact ⟨[], item, rest, rfl, hitem, fun later hlater hproperty =>
            hrest ⟨later, hlater, hproperty⟩⟩
        · exact absurd ⟨item, hmem, hitem⟩ hrest

section Stranding

variable {route : Route} {targetIp : Option String} {tiers : List UpstreamTier}
variable {cooling : CooldownKey → Bool} {trace : Trace (sig Ws Conn)}

/-- A tier that passed its test in a run without dials is a Worker or upstream
rung that found all its endpoints cooling. -/
theorem PassedBy.found {tier : UpstreamTier} {later : List UpstreamTier}
    (hpassed : PassedBy route targetIp tier later trace) (hidle : dialled trace = [])
    (hpasses : route.passes targetIp tier = true) :
    (tier = .cfworker ∨ tier = .mtproto) ∧ route.tierAttemptableAfter later targetIp = true ∧
      ∀ endpoint ∈ route.endpoints targetIp tier, FoundCooling trace endpoint := by
  have htier : tier ≠ .tcp := by
    intro htcp
    rw [htcp] at hpasses
    simp [Route.passes, hpassed.tcp htcp] at hpasses
  have hfound : ∀ endpoint ∈ route.endpoints targetIp tier,
      route.tierAttemptableAfter later targetIp = true ∧ FoundCooling trace endpoint := by
    intro endpoint hendpoint
    rcases hpassed.endpoints endpoint hendpoint with hdialled | hfound
    · rw [hidle] at hdialled
      cases hdialled
    · exact hfound
  obtain ⟨endpoint, hendpoint⟩ :=
    List.exists_mem_of_ne_nil _ (route.endpoints_ne_nil targetIp hpasses htier)
  obtain ⟨hlater, key, hkey, _⟩ := hfound endpoint hendpoint
  refine ⟨?_, hlater, fun endpoint hendpoint => (hfound endpoint hendpoint).2⟩
  -- Only these two rungs have endpoints with a cooldown.
  cases tier with
  | cfworker => exact .inl rfl
  | mtproto => exact .inr rfl
  | tcp => exact absurd rfl htier
  | cfproxy =>
      obtain ⟨domain, _, rfl⟩ := List.mem_map.mp hendpoint
      cases hkey
  | ws =>
      cases targetIp with
      | none => cases hendpoint
      | some targetIp =>
          obtain ⟨domain, _, rfl⟩ := List.mem_map.mp hendpoint
          cases hkey

theorem AnswersFrom.of_mem (hanswers : AnswersFrom cooling trace) (hidle : dialled trace = [])
    {key : CooldownKey} {reply : Bool} (hmem : ⟨.active key, reply⟩ ∈ trace) :
    reply = cooling key := by
  obtain ⟨before, after, rfl⟩ := List.append_of_mem hmem
  rw [dialled_append, List.append_eq_nil_iff] at hidle
  exact hanswers before key reply after rfl hidle.1

theorem stranded_of_idle (hanswers : AnswersFrom cooling trace) (hidle : dialled trace = [])
    (hpassed : ∀ before tier later, tiers = before ++ tier :: later →
      PassedBy route targetIp tier later trace)
    (hexists : ∃ tier ∈ tiers, route.passes targetIp tier = true) :
    Stranded route targetIp tiers cooling := by
  obtain ⟨before, tier, later, htiers, hpasses, hlast⟩ := exists_last hexists
  obtain ⟨htier, hattemptable, hfound⟩ :=
    (hpassed before tier later htiers).found hidle hpasses
  obtain ⟨other, hmem, hother⟩ | ⟨hworker, hworkers, hdestination⟩ :=
    (route.tierAttemptableAfter_iff targetIp later).mp hattemptable
  -- The tier is the last that passes its test, so only misjudged Workers can follow.
  · exact absurd hother (hlast other hmem)
  · have hmtproto : tier = .mtproto := by
      rcases htier with rfl | rfl
      · simp [Route.passes, hdestination] at hpasses
      · rfl
    subst hmtproto
    refine ⟨hdestination, hworkers, ?_, ?_, ⟨before, later, htiers, hworker, ?_⟩, ?_⟩
    · simpa [Route.passes] using hpasses
    · intro hproxy
      by_contra hdomains
      obtain ⟨front, back, hsplit⟩ := List.append_of_mem hproxy
      have hproxyPasses : route.passes targetIp .cfproxy = true := by
        simpa [Route.passes] using hdomains
      obtain ⟨htier, _⟩ := (hpassed front .cfproxy back hsplit).found hidle hproxyPasses
      rcases htier with htier | htier <;> cases htier
    · intro hagain
      exact hlast _ hagain hpasses
    · intro proxy hproxy
      obtain ⟨key, hkey, hactive⟩ := hfound (.upstream proxy) (List.mem_map_of_mem hproxy)
      cases hkey
      exact (hanswers.of_mem hidle hactive).symm

/-! ### A stranded run -/

theorem walkEndpoints_cooling {Item Link : Type} (key : Item → CooldownKey) (cooldown : Nat)
    (dial : Item → M Ws Conn (Option Link)) (onConnected : Item → M Ws Conn Unit)
    (items : List Item) :
    Runs (walkEndpoints false key cooldown dial onConnected items)
      (items.map fun item => ⟨.active (key item), true⟩) none := by
  induction items with
  | nil => exact .pure none
  | cons item rest ih =>
      have hskip : Runs (skips false (key item) : M Ws Conn Bool)
          [⟨.active (key item), true⟩] true :=
        @Runs.perform (sig Ws Conn) (.active (key item)) true
      rw [walkEndpoints]
      exact hskip.bind ih

/-- All that happens is that upstream proxies are found cooling. -/
def OnlyCooling (route : Route) (trace : Trace (sig Ws Conn)) : Prop :=
  ∀ event ∈ trace, ∃ proxy ∈ route.config.mtprotoProxies,
    event = ⟨.active (.upstream (upstreamKey proxy)), true⟩

theorem OnlyCooling.nil : OnlyCooling route ([] : Trace (sig Ws Conn)) :=
  fun _ hmem => (List.not_mem_nil hmem).elim

theorem OnlyCooling.append {first second : Trace (sig Ws Conn)} (hfirst : OnlyCooling route first)
    (hsecond : OnlyCooling route second) : OnlyCooling route (first ++ second) := by
  intro event hevent
  rcases List.mem_append.mp hevent with hevent | hevent
  · exact hfirst event hevent
  · exact hsecond event hevent

/-- Without a destination each rung can be passed without an attempt: most are
skipped, and the upstream rung finds its proxies cooling unless forced. -/
theorem pinnedTier_stranded {tier : UpstreamTier} {force : Bool}
    (hdestination : route.destination none = none)
    (hunproxied : tier = .cfproxy → route.config.cfDomains = [])
    (hforce : tier = .mtproto → force = false) :
    ∃ trace : Trace (sig Ws Conn), Runs (route.pinnedTier none force tier) trace none ∧
      OnlyCooling route trace := by
  have hnone : route.fallbackIp.or none = none := hdestination
  cases tier with
  | ws => exact ⟨[], .pure none, .nil⟩
  | cfworker | tcp =>
      simp only [Route.pinnedTier, hnone]
      exact ⟨[], .pure none, .nil⟩
  | cfproxy =>
      simp only [Route.pinnedTier, Route.cfProxy, hunproxied rfl, if_true]
      exact ⟨[], .pure none, .nil⟩
  | mtproto =>
      rw [hforce rfl]
      refine ⟨_, (walkEndpoints_cooling _ _ _ _ _).bind (.pure none), ?_⟩
      intro event hevent
      rw [List.append_nil] at hevent
      obtain ⟨proxy, hproxy, rfl⟩ := List.mem_map.mp hevent
      exact ⟨proxy, hproxy, rfl⟩

theorem pinnedLadder_stranded (hdestination : route.destination targetIp = none)
    (hunproxied : .cfproxy ∈ tiers → route.config.cfDomains = [])
    (hworkers : route.config.cfWorkerDomains ≠ [])
    (hlast : ∀ before later, tiers = before ++ .mtproto :: later → .cfworker ∈ later) :
    ∃ trace : Trace (sig Ws Conn), Runs (route.pinnedLadder targetIp tiers) trace none ∧
      OnlyCooling route trace := by
  have htarget : targetIp = none := (Option.or_eq_none_iff.mp hdestination).2
  subst htarget
  induction tiers with
  | nil => exact ⟨[], .pure none, .nil⟩
  | cons tier later ih =>
      obtain ⟨rest, hrest, hrestCooling⟩ := ih
        (fun hmem => hunproxied (List.mem_cons_of_mem _ hmem))
        (fun before after heq => hlast (tier :: before) after (by rw [heq]; rfl))
      -- The Workers further on count as attemptable, so nothing is forced.
      have hforce : tier = .mtproto → (!route.tierAttemptableAfter later none) = false := by
        rintro rfl
        rw [Bool.not_eq_false', route.tierAttemptableAfter_iff]
        exact .inr ⟨hlast [] later rfl, hworkers, hdestination⟩
      obtain ⟨walk, hwalk, hwalkCooling⟩ := @pinnedTier_stranded Ws Conn route tier _ hdestination
        (fun htier => hunproxied (htier ▸ List.mem_cons_self)) hforce
      exact ⟨walk ++ rest, hwalk.bind hrest, hwalkCooling.append hrestCooling⟩

/-- A Worker rung behind the last upstream rung is behind every upstream rung. -/
theorem Stranded.behind (hstranded : Stranded route targetIp tiers cooling) :
    ∀ before later, tiers = before ++ .mtproto :: later → .cfworker ∈ later := by
  obtain ⟨front, back, htiers, hworker, hlast⟩ := hstranded.last
  intro before later heq
  rw [htiers] at heq
  rcases List.append_eq_append_iff.mp heq with ⟨inner, _, hrest⟩ | ⟨inner, _, hrest⟩
  · cases inner with
    | nil =>
        cases hrest
        exact hworker
    | cons _ inner =>
        cases hrest
        exact absurd (List.mem_append_right inner List.mem_cons_self) hlast
  · cases inner with
    | nil =>
        cases hrest
        exact hworker
    | cons _ inner =>
        cases hrest
        exact List.mem_append_right inner (List.mem_cons_of_mem _ hworker)

theorem exists_idle_run (hstranded : Stranded route targetIp tiers cooling) :
    ∃ trace : Trace (sig Ws Conn), AnswersFrom cooling trace ∧
      Runs (route.pinnedLadder targetIp tiers) trace none ∧ ¬ Attempted trace := by
  obtain ⟨trace, hrun, hcooling⟩ := @pinnedLadder_stranded Ws Conn route targetIp tiers
    hstranded.destination hstranded.unproxied hstranded.workers hstranded.behind
  refine ⟨trace, ?_, hrun, ?_⟩
  · rintro before key reply after rfl _
    obtain ⟨proxy, hproxy, heq⟩ := hcooling ⟨.active key, reply⟩ (by simp)
    cases heq
    exact (hstranded.cooled proxy hproxy).symm
  · rintro ⟨event, hevent, hattempt⟩
    obtain ⟨proxy, _, rfl⟩ := hcooling event hevent
    rcases hattempt with hattempt | hattempt <;> cases hattempt

end Stranding

/-- A Worker or upstream rung takes itself for not the last one, because of
Workers further on that will be skipped for want of a destination. -/
structure Misjudged (route : Route) (targetIp : Option String) (later : List UpstreamTier) :
    Prop where
  destination : route.destination targetIp = none
  workers : route.config.cfWorkerDomains ≠ []
  behind : .cfworker ∈ later
  unproxied : .cfproxy ∈ later → route.config.cfDomains = []
  noUpstream : .mtproto ∈ later → route.config.mtprotoProxies = []

theorem Misjudged.not_passes {route : Route} {targetIp : Option String}
    {later : List UpstreamTier} (hmisjudged : Misjudged route targetIp later) :
    ∀ tier ∈ later, route.passes targetIp tier = false := by
  have htarget : targetIp = none := (Option.or_eq_none_iff.mp hmisjudged.destination).2
  intro tier hmem
  cases tier with
  | ws => simp [Route.passes, htarget]
  | cfworker => simp [Route.passes, hmisjudged.destination]
  | cfproxy => simp [Route.passes, hmisjudged.unproxied hmem]
  | mtproto => simp [Route.passes, hmisjudged.noUpstream hmem]
  | tcp => simp [Route.passes, hmisjudged.destination]

/-- The two sets of conditions agree on the tiers that are left, except when they
misjudge Workers. -/
theorem lastResort_mirrors_iff (route : Route) (targetIp : Option String)
    (later : List UpstreamTier) :
    ((!route.tierAttemptableAfter later targetIp) = true ↔
        ∀ tier ∈ later, route.passes targetIp tier = false) ↔
      ¬ Misjudged route targetIp later := by
  rw [Bool.not_eq_true', ← Bool.not_eq_true, route.tierAttemptableAfter_iff]
  constructor
  · intro hmirrors hmisjudged
    exact hmirrors.mpr hmisjudged.not_passes
      (.inr ⟨hmisjudged.behind, hmisjudged.workers, hmisjudged.destination⟩)
  · intro hjudged
    constructor
    · intro hlast tier hmem
      by_contra hpasses
      exact hlast (.inl ⟨tier, hmem, by simpa using hpasses⟩)
    · rintro hskipped (⟨tier, hmem, hpasses⟩ | ⟨hworker, hworkers, hdestination⟩)
      · rw [hskipped tier hmem] at hpasses
        cases hpasses
      · refine hjudged ⟨hdestination, hworkers, hworker, ?_, ?_⟩
        · intro hmem
          simpa [Route.passes] using hskipped _ hmem
        · intro hmem
          simpa [Route.passes] using hskipped _ hmem

/-- For every pinned list and every state of the cooldowns: a connection that some
listed tier could serve is not dropped without an attempt, exactly unless the list
strands it; and the Worker and upstream rungs know when they are the last resort,
exactly unless one of them misjudges the Workers behind it. -/
theorem pinnedLadder_last_resort (route : Route) (targetIp : Option String)
    (tiers : List UpstreamTier) (cooling : CooldownKey → Bool) :
    (((∃ tier ∈ tiers, route.passes targetIp tier = true) →
        ∀ trace : Trace (sig Ws Conn), AnswersFrom cooling trace →
          Runs (route.pinnedLadder targetIp tiers) trace none → Attempted trace) ↔
      ¬ Stranded route targetIp tiers cooling) ∧
    ((∀ before tier later, tiers = before ++ tier :: later →
        tier = .cfworker ∨ tier = .mtproto →
        ((!route.tierAttemptableAfter later targetIp) = true ↔
          ∀ other ∈ later, route.passes targetIp other = false)) ↔
      ¬ ∃ before tier later, tiers = before ++ tier :: later ∧
        (tier = .cfworker ∨ tier = .mtproto) ∧ Misjudged route targetIp later) := by
  refine ⟨⟨?_, ?_⟩, ⟨?_, ?_⟩⟩
  · intro hattempts hstranded
    obtain ⟨trace, hanswers, hrun, hidle⟩ := @exists_idle_run Ws Conn _ _ _ _ hstranded
    obtain ⟨before, later, htiers, -, -⟩ := hstranded.last
    have hpasses : route.passes targetIp .mtproto = true := by
      simpa [Route.passes] using hstranded.proxies
    exact hidle (hattempts ⟨.mtproto, by simp [htiers], hpasses⟩ trace hanswers hrun)
  · intro hsafe hexists trace hanswers hrun
    by_contra hidle
    have hpassed := pinnedLadder_passedBy route targetIp tiers _ _ hrun rfl
    exact hsafe (stranded_of_idle hanswers (dialled_eq_nil_of_not_attempted hidle) hpassed hexists)
  · rintro hmirrors ⟨before, tier, later, htiers, htier, hmisjudged⟩
    exact (lastResort_mirrors_iff route targetIp later).mp
      (hmirrors before tier later htiers htier) hmisjudged
  · intro hjudged before tier later htiers htier
    apply (lastResort_mirrors_iff route targetIp later).mpr
    intro hmisjudged
    exact hjudged ⟨before, tier, later, htiers, htier, hmisjudged⟩

/-- An upstream proxy, then a Worker, for a data centre without any address. -/
def strandedRoute : Route where
  config :=
    { cfWorkerDomains := ["worker.example"]
      mtprotoProxies := [⟨"proxy.example", 443, "2a519e5be6c3219c69879e5fa2a0eab8"⟩]
      pinnedUpstreams := [.mtproto, .cfworker] }
  dc := 6
  isMedia := false
  dcIdx := 6
  proto := .intermediate

/-- While the proxy is in cooldown the connection is dropped without an attempt,
although the upstream rung is the only one that can serve it. -/
theorem strandedRoute_dropped :
    strandedRoute.config.dcTargetIp strandedRoute.dc = none ∧
      strandedRoute.passes none .mtproto = true ∧
      Runs (strandedRoute.selectUpstream none : M Unit Unit (Option (Upstream Unit Unit)))
        [⟨.active (.upstream "proxy.example:443"), true⟩] none ∧
      ¬ Attempted ([⟨.active (.upstream "proxy.example:443"), true⟩] : Trace (sig Unit Unit)) ∧
      strandedRoute.tierAttemptableAfter [.cfworker] none = true ∧
      strandedRoute.passes none .cfworker = false := by
  refine ⟨rfl, rfl, execute_runs (fun _ => refusing true) (strandedRoute.selectUpstream none) [],
    ?_, rfl, rfl⟩
  rintro ⟨event, hevent, hattempt⟩
  rw [List.mem_singleton.mp hevent] at hattempt
  rcases hattempt with hattempt | hattempt <;> cases hattempt

end TgWsProxy.Routing
