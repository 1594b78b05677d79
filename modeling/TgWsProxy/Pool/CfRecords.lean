import TgWsProxy.Pool.CfOrigin

/-!
# Names that the Cloudflare-proxy pool dials

The inline walk of the proxy tier only dials records `kws{dc}.{domain}`. Such a
record travels through the target, the pool entry and the next target, and the
refill task dials it as it stands. With `--cf-balance` the target names an
element of the rotation list instead, which is a bare domain and not a record of
the data centre.
-/

namespace TgWsProxy.Pool

open Foundation.Machine Foundation.Transition TgWsProxy.Cloudflare

/-- A name that the inline walk can dial for a data centre. -/
def IsRecord (config : Config) (dc : Nat) (name : String) : Prop :=
  ∃ domain ∈ config.cfDomains, name = kwsRecord dc domain

/-- Every background dial of the proxy tier goes to a record of its data centre. -/
def DialsRecords (config : Config) (pool : CfPool) : Prop :=
  ∀ dial ∈ pool.dials, dial.key.1 = .proxy → IsRecord config dial.key.2.1 dial.hostname

/-! ## Names in the state -/

def CfTarget.Genuine (config : Config) (target : CfTarget) : Prop :=
  target.tier = .proxy → IsRecord config target.dc target.domain

/-- The names a client carries along are genuine. -/
def CfClient.PhaseGenuine (config : Config) (client : CfClient) : CfPhase → Prop
  | .walkingRecords record attempts =>
      IsRecord config client.dc record ∧ attempts.dc = client.dc ∧
        attempts.domains = config.cfDomains
  | .walkingWorkers _ _ => client.tier = .worker
  | .connected domain => client.tier = .proxy → IsRecord config client.dc domain
  | .prefetching target => target.Genuine config
  | .entered | .rotated _ | .missed => True

/-- All proxy-tier names anywhere in the state are records. -/
structure Genuine (config : Config) (pool : CfPool) : Prop where
  clients : ∀ client ∈ pool.clients, client.PhaseGenuine config client.phase
  refills : ∀ task ∈ pool.refills, task.target.Genuine config
  idle : ∀ dc isMedia, ∀ entry ∈ pool.idle (.proxy, dc, isMedia), IsRecord config dc entry.domain
  dials : DialsRecords config pool

namespace Genuine

variable {config : Config} {width : PointerWidth} {pool : CfPool}

theorem bucket (hpool : Genuine config pool) (key : CfKey) (htier : key.1 = .proxy)
    {entry : CfEntry} (hentry : entry ∈ pool.idle key) : IsRecord config key.2.1 entry.domain := by
  obtain ⟨tier, dc, isMedia⟩ := key
  cases htier
  exact hpool.idle dc isMedia entry hentry

/-- A walk over the domains of the configuration stands at a record. -/
theorem phase_of_nextDomain {client : CfClient} {attempts next : CfAttempts} {record : String}
    (hdc : attempts.dc = client.dc) (hdomains : attempts.domains = config.cfDomains)
    (hnext : attempts.nextDomain = (some record, next)) :
    client.PhaseGenuine config (.walkingRecords record next) := by
  obtain ⟨hnextDc, hnextDomains, hrecord⟩ := CfAttempts.nextDomain_record hnext
  obtain ⟨domain, hdomain, hname⟩ := hrecord record rfl
  exact ⟨⟨domain, hdomains ▸ hdomain, by rw [hname, hdc]⟩, hnextDc.trans hdc,
    hnextDomains.trans hdomains⟩

/-- The target keeps the record that answered, unless the rotation replaces it. -/
theorem cfTarget_genuine (hcondition : config.cfBalance = false ∨ config.cfDomains = [])
    (pool : CfPool) {client : CfClient} {domain : String}
    (hdomain : client.tier = .proxy → IsRecord config client.dc domain) :
    (cfTarget config width pool client domain).1.Genuine config := by
  intro htier
  have htier : client.tier = .proxy := by
    simpa [cfTarget] using htier
  obtain ⟨zone, hzone, hname⟩ := hdomain htier
  rcases hcondition with hbalance | hdomains
  · have htarget : (cfTarget config width pool client domain).1.domain = domain := by
      simp [cfTarget, hbalance]
    have hdc : (cfTarget config width pool client domain).1.dc = client.dc := by simp [cfTarget]
    exact ⟨zone, hzone, by rw [htarget, hdc, hname]⟩
  · rw [hdomains] at hzone
    cases hzone

/-- Without rotation, or without domains to rotate over, a client only turns to genuine
names. -/
theorem turns (hcondition : config.cfBalance = false ∨ config.cfDomains = [])
    (hpool : Genuine config pool) {client : CfClient} (hclient : client ∈ pool.clients)
    {phase : CfPhase} (hturns : client.Turns config width pool phase) :
    client.PhaseGenuine config phase := by
  have hgenuine := hpool.clients client hclient
  cases hturns with
  | same => exact hgenuine
  | rotated | missed => trivial
  | firstRecord hnext => exact phase_of_nextDomain rfl rfl hnext
  | nextRecord hphase hnext =>
      rw [hphase] at hgenuine
      exact phase_of_nextDomain hgenuine.2.1 hgenuine.2.2 hnext
  | recordAfterTimeout hphase hnext =>
      rw [hphase] at hgenuine
      refine phase_of_nextDomain ?_ ?_ hnext
      · exact hgenuine.2.1
      · exact hgenuine.2.2
  | firstWorker htier => exact htier
  | nextWorker hphase =>
      rw [hphase] at hgenuine
      exact hgenuine
  | recordConnected hphase =>
      rw [hphase] at hgenuine
      exact fun _ => hgenuine.1
  | workerConnected hphase =>
      rw [hphase] at hgenuine
      intro hproxy
      cases hproxy.symm.trans hgenuine
  | pooled hentry => exact fun htier => hpool.bucket client.key htier hentry
  | described hphase =>
      rw [hphase] at hgenuine
      -- Without rotation the spare keeps the name of the connection that worked.
      exact cfTarget_genuine hcondition pool hgenuine

theorem start : Genuine config CfPool.start :=
  ⟨fun _ hmem => (List.not_mem_nil hmem).elim, fun _ hmem => (List.not_mem_nil hmem).elim,
    fun _ _ _ hmem => (List.not_mem_nil hmem).elim, fun _ hmem => (List.not_mem_nil hmem).elim⟩

theorem step (hcondition : config.cfBalance = false ∨ config.cfDomains = [])
    (hpool : Genuine config pool) {next : CfPool} {label : CfLabel}
    (hmoves : CfMoves config width pool label next) :
    Genuine config next := by
  have hdescends := CfPool.Descends.of_moves hmoves
  refine ⟨?_, ?_, ?_, ?_⟩
  · intro client hclient
    rcases hdescends.clients client hclient with hphase | ⟨earlier, hearlier, phase, rfl, hturns⟩
    · rw [hphase]
      trivial
    · exact hpool.turns hcondition hearlier hturns
  · intro task htask
    rcases hdescends.refills task htask with ⟨earlier, hearlier, hsame⟩ | ⟨client, hclient, hphase⟩
    · rw [← hsame]
      exact hpool.refills earlier hearlier
    · have hgenuine := hpool.clients client hclient
      rw [hphase] at hgenuine
      exact hgenuine
  · intro dc isMedia entry hentry
    rcases hdescends.idle _ entry hentry with hentry | ⟨task, htask, ws, now, hkey, rfl⟩
    · exact hpool.idle dc isMedia entry hentry
    · obtain ⟨htier, hrest⟩ := Prod.mk.inj hkey
      obtain ⟨rfl, -⟩ := Prod.mk.inj hrest
      exact hpool.refills task htask htier
  · intro dial hdial htier
    rcases hdescends.dials dial hdial with hdial | ⟨task, htask, rfl⟩
    · exact hpool.dials dial hdial htier
    · exact hpool.refills task htask htier

end Genuine

/-! ## Runs -/

section Balanced

variable {config : Config} {width : PointerWidth}

/-- A client of `dc` dials its first record inline; the spare connection that it
asks for is then dialled in the background. -/
def spareRun (dc : Nat) : List CfLabel :=
  [.arrive .proxy dc false "", .rotate 0, .get 0 0 (fun _ => false), .dial 0 (.connected ()),
    .describe 0, .prefetch 0, .refillMeasure 0]

/-- The offset that the second rotation of the proxy tier yields. -/
def secondOffset (config : Config) (width : PointerWidth) : Nat :=
  (balanceOffset width config.cfDomains true
    (balanceOffset width config.cfDomains true 0).2).1

theorem spareRun_dials (hbalance : config.cfBalance = true) (hsize : config.poolSize ≠ 0)
    (hdomains : config.cfDomains ≠ []) {bare : String}
    (hbare : (domainOrder config.cfDomains (secondOffset config width)).head? = some bare)
    (dc : Nat) :
    ∃ pool, (cfSystem config width).Visits (spareRun dc) pool ∧
      pool.dials = [⟨(.proxy, dc, false), bare⟩] := by
  have hlt : (balanceOffset width config.cfDomains true 0).1 % config.cfDomains.length <
      config.cfDomains.length := Nat.mod_lt _ (List.length_pos_of_ne_nil hdomains)
  obtain ⟨attempts, hrecord⟩ :=
    CfAttempts.withOffset_nextDomain dc (List.getElem?_eq_getElem hlt)
  have hbudget : cfBudget config ≠ 0 := by
    unfold cfBudget cfPoolMax
    omega
  unfold secondOffset at hbare
  have hrun : ∃ pool, (cfSystem config width).run (spareRun dc) = some pool ∧
      pool.dials = [⟨(.proxy, dc, false), bare⟩] := by
    simp [System.run, System.runFrom, spareRun, cfSystem, cfStep, arrive, tierDomains, hdomains,
      clientStep, rotate, CfLabel.index, CfPool.start, CfPool.setClient, cfGet, takeFreshCf,
      walkRecords, hrecord, hbalance, recordDialed, inlineConnected, cfTarget, cfPrefetch, hsize,
      CfPool.dropClient, cfRefillStep, cfRefillMeasure, hbare, CfPool.setRefill, cfConnectOne,
      hbudget, CfTarget.key, CfClient.key, setCfBucket]
  obtain ⟨pool, hpool, hdials⟩ := hrun
  exact ⟨pool, ⟨spareRun dc, [], (List.append_nil _).symm, hpool⟩, hdials⟩

end Balanced

/-- No name is a record of two different data centres among the first two. -/
theorem kwsRecord_one_ne_two (domain other : String) : kwsRecord 1 domain ≠ kwsRecord 2 other := by
  intro heq
  have hlist := congrArg String.toList heq
  have hchar := congrArg (fun chars => chars[3]?) hlist
  have hone : Nat.toDigits 10 1 = ['1'] := rfl
  have htwo : Nat.toDigits 10 2 = ['2'] := rfl
  simp [kwsRecord, hone, htwo] at hchar

/-- In every run, every name that the background refill dials for the proxy tier
is a record of its data centre exactly when the rotation is off, the pool has no
slots, or there is no proxy domain. -/
theorem cf_pool_dials_records (config : Config) (width : PointerWidth) :
    (∀ labels pool, (cfSystem config width).Visits labels pool → DialsRecords config pool) ↔
      config.cfBalance = false ∨ config.poolSize = 0 ∨ config.cfDomains = [] := by
  constructor
  · intro hrecords
    by_contra hnone
    push Not at hnone
    obtain ⟨hbalance, hsize, hdomains⟩ := hnone
    obtain ⟨bare, _, hbare⟩ := domainOrder_head hdomains (secondOffset config width)
    have hrecord : ∀ dc, IsRecord config dc bare := by
      intro dc
      obtain ⟨pool, hvisits, hdials⟩ :=
        spareRun_dials (by simpa using hbalance) hsize hdomains hbare dc
      have hdial : ⟨(.proxy, dc, false), bare⟩ ∈ pool.dials := by simp [hdials]
      exact hrecords _ pool hvisits _ hdial rfl
    -- The bare domain does not depend on the data centre of the client.
    obtain ⟨domain, _, hone⟩ := hrecord 1
    obtain ⟨other, _, htwo⟩ := hrecord 2
    exact kwsRecord_one_ne_two domain other (hone.symm.trans htwo)
  · rintro hsafe labels pool hvisits
    have hgenuine (hcondition : config.cfBalance = false ∨ config.cfDomains = []) :
        Genuine config pool :=
      System.Visits.invariant (cfSystem config width) Genuine.start
        (fun state label next hstep hstate => hstate.step hcondition (cfStep_moves hstep)) hvisits
    rcases hsafe with hbalance | hsize | hdomains
    · exact (hgenuine (.inl hbalance)).dials
    · have hdormant : pool.ledger.Dormant :=
        CfLedger.invariant CfLedger.Dormant ⟨rfl, rfl⟩
          (fun ledger next hmoves hledger => hledger.step hsize hmoves) hvisits
      have hnone : pool.dials = [] := hdormant.2
      intro dial hdial
      rw [hnone] at hdial
      cases hdial
    · exact (hgenuine (.inr hdomains)).dials

/-- Two proxy domains in rotation, with one pooled connection. -/
def balancedConfig : Config :=
  { poolSize := 1, cfBalance := true, cfDomains := ["a.example", "b.example"] }

/-- A client of data centre 2 connects through `kws2.a.example`, and the spare is
dialled at `b.example` itself. -/
theorem cf_pool_dials_bare_domain :
    ∃ pool, (cfSystem balancedConfig .bits64).Visits (spareRun 2) pool ∧
      pool.dials = [⟨(.proxy, 2, false), "b.example"⟩] ∧
      ¬ IsRecord balancedConfig 2 "b.example" := by
  refine ⟨_, ⟨spareRun 2, [], rfl, rfl⟩, rfl, ?_⟩
  rintro ⟨domain, hdomain, hname⟩
  simp only [balancedConfig, List.mem_cons, List.not_mem_nil, or_false] at hdomain
  rcases hdomain with rfl | rfl
  · revert hname
    decide
  · revert hname
    decide

end TgWsProxy.Pool
