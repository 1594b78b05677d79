import TgWsProxy.Pool.CfRecords

/-!
# What `--cf-balance` does to the load

The rotation counter of a tier is advanced by every inline connect and once more
for the domain of its spare, but not for the refill after a pool hit, which
reopens the domain that was hit. So one domain can carry almost all clients: with
a pool, the domain of the first spare; without one, whichever domain the counter
names when clients, rather than spares, read it.
-/

namespace TgWsProxy.Pool

open Foundation.Machine Foundation.Transition TgWsProxy.Cloudflare

/-! ## Load -/

/-- The connection of a tier runs through the domain: a Worker is dialled by its
name, a proxied zone at a record of the data centre or, for a spare, by its name. -/
def carriedBy (domain : String) (connection : CfKey × String × Nat) : Prop :=
  connection.2.1 = domain ∨
    connection.1.1 = .proxy ∧ connection.2.1 = kwsRecord connection.1.2.1 domain

instance (domain : String) (connection : CfKey × String × Nat) :
    Decidable (carriedBy domain connection) :=
  inferInstanceAs (Decidable (_ ∨ _))

/-- Client connections of a tier that run through the domain. -/
def load (pool : CfPool) (tier : CfTier) (domain : String) : Nat :=
  pool.served.countP fun connection => connection.1.1 = tier ∧ carriedBy domain connection

/-- No dial fails. A Worker is only in its cooldown after a failed dial. -/
def CfLabel.Succeeds : CfLabel → Prop
  | .dial _ result => result = .connected ()
  | .refillDial _ connected => connected = true
  | .skipCooling _ => False
  | _ => True

/-- Over all runs without a failed dial, the loads of any two domains of the tier
differ by at most a constant. -/
def Balances (config : Config) (width : PointerWidth) (tier : CfTier) : Prop :=
  ∃ bound, ∀ labels pool, (cfSystem config width).run labels = some pool →
    (∀ label ∈ labels, label.Succeeds) →
    ∀ domain ∈ tierDomains config tier, ∀ other ∈ tierDomains config tier,
      load pool tier domain ≤ load pool tier other + bound

/-! ## Runs without a failed dial -/

section Runs

variable {config : Config} {width : PointerWidth} {tier : CfTier} {dc : Nat}
  {pool middle next : CfPool}

def Leads (config : Config) (width : PointerWidth) (pool next : CfPool) : Prop :=
  ∃ labels : List CfLabel, (∀ label ∈ labels, label.Succeeds) ∧
    (cfSystem config width).runFrom pool labels = some next

theorem Leads.refl (pool : CfPool) : Leads config width pool pool :=
  ⟨[], fun _ hmem => (List.not_mem_nil hmem).elim, rfl⟩

theorem Leads.step {label : CfLabel} (hstep : cfStep config width pool label = some middle)
    (hsucceeds : label.Succeeds) (hrest : Leads config width middle next) :
    Leads config width pool next := by
  obtain ⟨labels, hlabels, hnext⟩ := hrest
  refine ⟨label :: labels, List.forall_mem_cons.mpr ⟨hsucceeds, hlabels⟩, ?_⟩
  exact Option.bind_eq_some_iff.mpr ⟨middle, hstep, hnext⟩

theorem Leads.trans (hfirst : Leads config width pool middle)
    (hsecond : Leads config width middle next) : Leads config width pool next := by
  obtain ⟨before, hbefore, hmiddle⟩ := hfirst
  obtain ⟨after, hafter, hnext⟩ := hsecond
  refine ⟨before ++ after, List.forall_mem_append.mpr ⟨hbefore, hafter⟩, ?_⟩
  rw [System.runFrom_append, hmiddle]
  exact hnext

theorem cfStep_of_client {label : CfLabel} (client : CfClient)
    (hclient : pool.clients[label.index]? = some client)
    (hmove : clientStep config width pool label.index client label = some next) :
    cfStep config width pool label = some next := by
  cases label with
  | rotate _ | get _ _ _ | dial _ _ | skipCooling _ | describe _ | prefetch _ =>
      exact Option.bind_eq_some_iff.mpr ⟨client, hclient, hmove⟩
  | _ => cases hmove

/-! ### The rotation -/

/-- The rotation counter of a tier. -/
def CfPool.counter (pool : CfPool) : CfTier → Nat
  | .worker => pool.workerCounter
  | .proxy => pool.proxyCounter

@[simp] theorem setClient_counter (pool : CfPool) (index : Nat) (client : CfClient)
    (phase : CfPhase) : (pool.setClient index client phase).counter tier = pool.counter tier := by
  cases tier <;> rfl

@[simp] theorem dropClient_counter (pool : CfPool) (index : Nat) :
    (pool.dropClient index).counter tier = pool.counter tier := by
  cases tier <;> rfl

/-- The pool after one tick of the rotation counter of a tier. -/
def CfPool.ticked (pool : CfPool) (width : PointerWidth) : CfTier → CfPool
  | .worker => { pool with workerCounter := width.wrappingAdd pool.workerCounter 1 }
  | .proxy => { pool with proxyCounter := width.wrappingAdd pool.proxyCounter 1 }

theorem ticked_frame (pool : CfPool) (width : PointerWidth) (tier : CfTier) :
    (pool.ticked width tier).idle = pool.idle ∧
      (pool.ticked width tier).clients = pool.clients ∧
      (pool.ticked width tier).served = pool.served ∧
      (pool.ticked width tier).counter tier = width.wrappingAdd (pool.counter tier) 1 := by
  cases tier <;> exact ⟨rfl, rfl, rfl, rfl⟩

theorem rotate_ticks (width : PointerWidth) (tier : CfTier) (hbalance : config.cfBalance = true)
    (htwo : 2 ≤ (tierDomains config tier).length) (pool : CfPool) :
    rotate config width pool tier =
      (pool.counter tier % (tierDomains config tier).length, pool.ticked width tier) := by
  have hmany : ¬ (tierDomains config tier).length ≤ 1 := by omega
  cases tier with
  | worker =>
      simp only [tierDomains] at hmany
      simp [rotate, balanceOffset, hbalance, hmany, CfPool.counter, CfPool.ticked, tierDomains]
  | proxy =>
      simp only [tierDomains] at hmany
      simp [rotate, balanceOffset, hbalance, hmany, CfPool.counter, CfPool.ticked, tierDomains]

/-! ### The latest client -/

/-- A client that arrived with no target address of its own. -/
def newcomer (tier : CfTier) (dc : Nat) (phase : CfPhase) : CfClient where
  tier := tier
  dc := dc
  isMedia := false
  dst := (defaultDcIp dc).getD ""
  phase := phase

@[simp] theorem newcomer_tier (phase : CfPhase) : (newcomer tier dc phase).tier = tier := rfl

@[simp] theorem newcomer_phase (phase : CfPhase) : (newcomer tier dc phase).phase = phase := rfl

def CfPool.joined (pool : CfPool) (tier : CfTier) (dc : Nat) (phase : CfPhase) : CfPool :=
  { pool with clients := pool.clients ++ [newcomer tier dc phase] }

theorem joined_setClient (pool : CfPool) (tier : CfTier) (dc : Nat) (phase later : CfPhase) :
    (pool.joined tier dc phase).setClient pool.clients.length (newcomer tier dc phase) later =
      pool.joined tier dc later := by
  simp [CfPool.joined, CfPool.setClient, newcomer]

theorem joined_client (pool : CfPool) (tier : CfTier) (dc : Nat) (phase : CfPhase) :
    (pool.joined tier dc phase).clients[pool.clients.length]? = some (newcomer tier dc phase) := by
  simp [CfPool.joined]

/-- The pool after the latest client connected inline. -/
def CfPool.joinedInline (pool : CfPool) (tier : CfTier) (dc : Nat) (name : String) : CfPool :=
  { pool.joined tier dc (.connected name) with
    served := ((tier, dc, false), name, pool.nextWs) :: pool.served
    nextWs := pool.nextWs + 1 }

/-- The name that an inline dial uses. -/
def inlineName (tier : CfTier) (dc : Nat) (domain : String) : String :=
  match tier with
  | .worker => domain
  | .proxy => kwsRecord dc domain

def allOpen : Nat → Bool := fun _ => false

theorem arrive_joined (hdomains : tierDomains config tier ≠ []) (pool : CfPool) (dc : Nat) :
    cfStep config width pool (.arrive tier dc false "") = some (pool.joined tier dc .entered) := by
  simp [cfStep, arrive, hdomains, CfPool.joined, newcomer]

theorem setCfBucket_same {idle : CfKey → List CfEntry} {key : CfKey} {bucket : List CfEntry}
    (hbucket : idle key = bucket) : setCfBucket idle key bucket = idle := by
  funext other
  simp only [setCfBucket]
  split
  next heq => rw [heq, hbucket]
  next => rfl

theorem cfGet_miss (hidle : pool.idle (tier, dc, false) = []) {phase : CfPhase}
    {onMiss : CfPool → CfPool} {index now : Nat} {closed : Nat → Bool} :
    cfGet config (pool.joined tier dc phase) index (newcomer tier dc phase) now closed onMiss =
      onMiss (pool.joined tier dc phase) := by
  have hkey : (pool.joined tier dc phase).idle (newcomer tier dc phase).key = [] := hidle
  simp only [cfGet, hkey, takeFreshCf, setCfBucket_same hkey]

theorem joined_inlineConnected (pool : CfPool) (tier : CfTier) (dc : Nat) (phase : CfPhase)
    (name : String) :
    inlineConnected (pool.joined tier dc phase) pool.clients.length (newcomer tier dc phase) name =
      pool.joinedInline tier dc name := by
  unfold inlineConnected
  rw [joined_setClient]
  rfl

/-- A client of the Worker tier looks into the pool and only then reads the rotation. -/
theorem worker_leads (hbalance : config.cfBalance = true)
    (htwo : 2 ≤ (tierDomains config .worker).length)
    (hidle : pool.idle (.worker, dc, false) = []) {domain : String}
    (hdomain : (tierDomains config .worker)[pool.workerCounter %
      (tierDomains config .worker).length]? = some domain) :
    Leads config width pool ((pool.ticked width .worker).joinedInline .worker dc domain) := by
  have hdomains : tierDomains config .worker ≠ [] := List.ne_nil_of_length_pos (by omega)
  obtain ⟨rest, hrest⟩ : ∃ rest, domainOrder config.cfWorkerDomains
      ((pool.joined .worker dc .missed).counter .worker % (tierDomains config .worker).length) =
        domain :: rest := domainOrder_eq_cons ((Nat.mod_mod _ _).symm ▸ hdomain)
  have hget : cfStep config width (pool.joined .worker dc .entered)
      (.get pool.clients.length 0 allOpen) = some (pool.joined .worker dc .missed) := by
    refine cfStep_of_client _ (joined_client pool ..) (congrArg some ?_)
    rw [cfGet_miss hidle]
    exact joined_setClient pool ..
  have hrotate : cfStep config width (pool.joined .worker dc .missed)
      (.rotate pool.clients.length) =
        some ((pool.ticked width .worker).joined .worker dc (.walkingWorkers domain rest)) := by
    refine cfStep_of_client _ (joined_client pool ..) ?_
    have hturn := rotate_ticks width .worker hbalance htwo (pool.joined .worker dc .missed)
    simp only [clientStep, newcomer_tier, newcomer_phase, hturn, hrest]
    exact congrArg some (joined_setClient (pool.ticked width .worker) ..)
  have hdial : cfStep config width
      ((pool.ticked width .worker).joined .worker dc (.walkingWorkers domain rest))
      (.dial pool.clients.length (.connected ())) =
        some ((pool.ticked width .worker).joinedInline .worker dc domain) :=
    cfStep_of_client _ (joined_client (pool.ticked width .worker) ..)
      (congrArg some (joined_inlineConnected (pool.ticked width .worker) ..))
  exact .step (arrive_joined hdomains pool dc) trivial <| .step hget trivial <|
    .step hrotate trivial <| .step hdial rfl (.refl _)

/-- A client of the proxy tier reads the rotation before it looks into the pool. -/
theorem proxy_leads (hbalance : config.cfBalance = true)
    (htwo : 2 ≤ (tierDomains config .proxy).length)
    (hidle : pool.idle (.proxy, dc, false) = []) {domain : String}
    (hdomain : (tierDomains config .proxy)[pool.proxyCounter %
      (tierDomains config .proxy).length]? = some domain) :
    Leads config width pool
      ((pool.ticked width .proxy).joinedInline .proxy dc (kwsRecord dc domain)) := by
  have hdomains : tierDomains config .proxy ≠ [] := List.ne_nil_of_length_pos (by omega)
  let first := pool.proxyCounter % (tierDomains config .proxy).length
  obtain ⟨attempts, hattempts⟩ :=
    CfAttempts.withOffset_nextDomain dc ((Nat.mod_mod _ _).symm ▸ hdomain)
  let ticked := pool.ticked width .proxy
  have hrotate : cfStep config width (pool.joined .proxy dc .entered)
      (.rotate pool.clients.length) = some (ticked.joined .proxy dc (.rotated first)) := by
    refine cfStep_of_client _ (joined_client pool ..) ?_
    have hturn := rotate_ticks width .proxy hbalance htwo (pool.joined .proxy dc .entered)
    simp only [clientStep, newcomer_tier, newcomer_phase, hturn]
    exact congrArg some (joined_setClient ticked ..)
  have hget : cfStep config width (ticked.joined .proxy dc (.rotated first))
      (.get pool.clients.length 0 allOpen) =
        some (ticked.joined .proxy dc (.walkingRecords (kwsRecord dc domain) attempts)) := by
    have hempty : ticked.idle (.proxy, dc, false) = [] := hidle
    refine cfStep_of_client _ (joined_client ticked ..) (congrArg some ?_)
    rw [cfGet_miss hempty]
    change walkRecords _ _ _ (CfAttempts.withOffset dc (tierDomains config .proxy) first) = _
    unfold walkRecords
    rw [hattempts]
    exact joined_setClient ticked ..
  have hdial : cfStep config width
      (ticked.joined .proxy dc (.walkingRecords (kwsRecord dc domain) attempts))
      (.dial pool.clients.length (.connected ())) =
        some (ticked.joinedInline .proxy dc (kwsRecord dc domain)) :=
    cfStep_of_client _ (joined_client ticked ..)
      (congrArg some (joined_inlineConnected ticked ..))
  exact .step (arrive_joined hdomains pool dc) trivial <| .step hrotate trivial <|
    .step hget trivial <| .step hdial rfl (.refl _)

theorem inline_leads (hbalance : config.cfBalance = true)
    (htwo : 2 ≤ (tierDomains config tier).length) (hidle : pool.idle (tier, dc, false) = [])
    {domain : String}
    (hdomain : (tierDomains config tier)[pool.counter tier % (tierDomains config tier).length]? =
      some domain) :
    Leads config width pool
      ((pool.ticked width tier).joinedInline tier dc (inlineName tier dc domain)) := by
  cases tier with
  | worker => exact worker_leads hbalance htwo hidle hdomain
  | proxy => exact proxy_leads hbalance htwo hidle hdomain

theorem cfPrefetch_frame (config : Config) (pool : CfPool) (target : CfTarget) (tier : CfTier) :
    (cfPrefetch config pool target).idle = pool.idle ∧
      (cfPrefetch config pool target).clients = pool.clients ∧
      (cfPrefetch config pool target).served = pool.served ∧
      (cfPrefetch config pool target).counter tier = pool.counter tier := by
  unfold cfPrefetch
  split
  next => exact ⟨rfl, rfl, rfl, rfl⟩
  next => cases tier <;> exact ⟨rfl, rfl, rfl, rfl⟩

/-- The client at the head of the list describes its spare, which reads the
rotation, asks for the refill and leaves. -/
theorem describe_leads (hbalance : config.cfBalance = true)
    (htwo : 2 ≤ (tierDomains config tier).length) {client : CfClient} {rest : List CfClient}
    (hclients : pool.clients = client :: rest) (htier : client.tier = tier) {name : String}
    (hphase : client.phase = .connected name) :
    ∃ next, Leads config width pool next ∧ next.idle = pool.idle ∧ next.clients = rest ∧
      next.served = pool.served ∧
      next.counter tier = width.wrappingAdd (pool.counter tier) 1 := by
  subst htier
  obtain ⟨hidle, hticked, hserved, hcounter⟩ := ticked_frame pool width client.tier
  obtain ⟨target, htarget⟩ : ∃ target,
      cfTarget config width pool client name = (target, pool.ticked width client.tier) := by
    refine ⟨_, Prod.ext rfl ?_⟩
    simp only [cfTarget, hbalance, if_true, rotate_ticks width client.tier hbalance htwo]
  let described := (pool.ticked width client.tier).setClient 0 client (.prefetching target)
  have hdescribed : described.clients = { client with phase := .prefetching target } :: rest := by
    simp [described, CfPool.setClient, hticked, hclients]
  have hdescribe : cfStep config width pool (.describe 0) = some described := by
    refine cfStep_of_client client (by simp [CfLabel.index, hclients]) ?_
    simp only [clientStep, hphase, htarget]
    rfl
  have hprefetch : cfStep config width described (.prefetch 0) =
      some ((cfPrefetch config described target).dropClient 0) :=
    cfStep_of_client { client with phase := .prefetching target }
      (by simp [CfLabel.index, hdescribed]) rfl
  obtain ⟨hsame, hqueue, hkept, htick⟩ := cfPrefetch_frame config described target client.tier
  refine ⟨_, .step hdescribe trivial (.step hprefetch trivial (.refl _)), ?_, ?_, ?_, ?_⟩
  · exact hsame.trans hidle
  · rw [CfPool.dropClient, hqueue, hdescribed]
    rfl
  · exact hkept.trans hserved
  · rw [dropClient_counter, htick, setClient_counter, hcounter]

/-! ### Turns of the rotation -/

/-- The second domain has carried nothing, and when its turn comes a client waits
to describe its spare. -/
structure Turning (config : Config) (width : PointerWidth) (tier : CfTier) (dc : Nat)
    (second : String) (pool : CfPool) : Prop where
  idle : pool.idle (tier, dc, false) = []
  connected : ∀ client ∈ pool.clients, client.tier = tier ∧ ∃ name, client.phase = .connected name
  counter_le : pool.counter tier ≤ width.usizeMax
  waits : pool.counter tier % (tierDomains config tier).length = 1 → pool.clients ≠ []
  spared : ∀ connection ∈ pool.served, ¬ carriedBy second connection

theorem carriedBy_inline (tier : CfTier) (dc ws : Nat) (domain : String) :
    carriedBy domain ((tier, dc, false), inlineName tier dc domain, ws) := by
  cases tier with
  | worker => exact .inl rfl
  | proxy => exact .inr ⟨rfl, rfl⟩

theorem kwsRecord_injective {dc : Nat} {domain other : String}
    (heq : kwsRecord dc domain = kwsRecord dc other) : domain = other :=
  (String.append_right_inj _).mp heq

theorem not_carriedBy_inline {second domain : String} {ws : Nat}
    (hrecord : ∀ zone, second ≠ kwsRecord dc zone) (hne : domain ≠ second) :
    ¬ carriedBy second ((tier, dc, false), inlineName tier dc domain, ws) := by
  cases tier with
  | worker =>
      rintro (heq | ⟨htier, -⟩)
      · exact hne heq
      · cases htier
  | proxy =>
      rintro (heq | ⟨-, heq⟩)
      · exact hrecord domain heq.symm
      · exact hne (kwsRecord_injective heq)

theorem wrappingAdd_one_mod {count counter : Nat} (hcount : 2 ≤ count)
    (hcounter : counter ≤ width.usizeMax) :
    width.wrappingAdd counter 1 % count = 0 ∨
      width.wrappingAdd counter 1 % count = counter % count + 1 := by
  rcases Nat.eq_or_lt_of_le hcounter with heq | hlt
  · left
    simp [PointerWidth.wrappingAdd, heq]
  · have hnext : width.wrappingAdd counter 1 = counter + 1 := Nat.mod_eq_of_lt (by omega)
    rw [hnext, Nat.add_mod, Nat.mod_eq_of_lt (a := 1) hcount]
    have hmod := Nat.mod_lt counter (show 0 < count by omega)
    rcases Nat.eq_or_lt_of_le hmod with hfull | hroom
    · left
      rw [show counter % count + 1 = count from hfull, Nat.mod_self]
    · right
      exact Nat.mod_eq_of_lt hroom

theorem wrappingAdd_le (width : PointerWidth) (left right : Nat) :
    width.wrappingAdd left right ≤ width.usizeMax :=
  Nat.le_of_lt_succ (Nat.mod_lt _ (Nat.succ_pos _))

variable {first second : String}

theorem Turning.inline (hbalance : config.cfBalance = true)
    (htwo : 2 ≤ (tierDomains config tier).length)
    (hrecord : ∀ zone, second ≠ kwsRecord dc zone)
    (hturning : Turning config width tier dc second pool) {domain : String}
    (hdomain : (tierDomains config tier)[pool.counter tier % (tierDomains config tier).length]? =
      some domain) (hne : domain ≠ second) :
    ∃ next, Leads config width pool next ∧ Turning config width tier dc second next ∧
      next.counter tier = width.wrappingAdd (pool.counter tier) 1 ∧
      ∃ ws, next.served = ((tier, dc, false), inlineName tier dc domain, ws) :: pool.served := by
  obtain ⟨hidle, hclients, hserved, hcounter⟩ := ticked_frame pool width tier
  have hnext : ((pool.ticked width tier).joinedInline tier dc
      (inlineName tier dc domain)).counter tier = width.wrappingAdd (pool.counter tier) 1 := by
    rw [← hcounter]
    cases tier <;> rfl
  refine ⟨_, inline_leads hbalance htwo hturning.idle hdomain, ?_, hnext, _,
    congrArg _ hserved⟩
  constructor
  case idle => exact (congrFun hidle _).trans hturning.idle
  case connected =>
      intro client hmem
      rcases List.mem_append.mp hmem with hmem | hmem
      · exact hturning.connected client (hclients ▸ hmem)
      · cases List.mem_singleton.mp hmem
        exact ⟨rfl, _, rfl⟩
  case counter_le => exact hnext ▸ wrappingAdd_le width _ _
  case waits =>
      intro _ hempty
      exact List.cons_ne_nil _ _ (List.append_eq_nil_iff.mp hempty).2
  case spared =>
      intro connection hmem
      rcases List.mem_cons.mp hmem with rfl | hmem
      · exact not_carriedBy_inline hrecord hne
      · exact hturning.spared connection (hserved ▸ hmem)

theorem Turning.describe (hbalance : config.cfBalance = true)
    (htwo : 2 ≤ (tierDomains config tier).length)
    (hturning : Turning config width tier dc second pool) (hwaits : pool.clients ≠ [])
    (hlater : pool.counter tier % (tierDomains config tier).length ≠ 0) :
    ∃ next, Leads config width pool next ∧ Turning config width tier dc second next ∧
      next.counter tier = width.wrappingAdd (pool.counter tier) 1 ∧
      next.served = pool.served := by
  obtain ⟨client, rest, hclients⟩ := List.exists_cons_of_ne_nil hwaits
  obtain ⟨htier, name, hphase⟩ := hturning.connected client (hclients ▸ List.mem_cons_self)
  obtain ⟨next, hleads, hidle, hrest, hserved, hcounter⟩ :=
    describe_leads hbalance htwo hclients htier hphase
  refine ⟨next, hleads, ?_, hcounter, hserved⟩
  constructor
  case idle => exact (congrFun hidle _).trans hturning.idle
  case connected =>
      intro client hmem
      exact hturning.connected client (hclients ▸ List.mem_cons_of_mem _ (hrest ▸ hmem))
  case counter_le => exact hcounter ▸ wrappingAdd_le width _ _
  case waits =>
      -- The turn of the second domain comes after that of the first only.
      intro hsecond
      rcases wrappingAdd_one_mod htwo hturning.counter_le with hmod | hmod
      · rw [hcounter, hmod] at hsecond
        cases hsecond
      · rw [hcounter, hmod] at hsecond
        omega
  case spared => exact hserved ▸ hturning.spared

theorem load_le_of_served {domain : String} {connection : CfKey × String × Nat}
    (hserved : next.served = connection :: pool.served) :
    load pool tier domain ≤ load next tier domain := by
  unfold load
  rw [hserved]
  exact (List.sublist_cons_self _ _).countP_le

theorem load_lt_of_carriedBy {domain : String} {connection : CfKey × String × Nat}
    (hserved : next.served = connection :: pool.served) (htier : connection.1.1 = tier)
    (hcarried : carriedBy domain connection) : load pool tier domain < load next tier domain := by
  unfold load
  rw [hserved, List.countP_cons_of_pos]
  · exact Nat.lt_succ_self _
  · exact decide_eq_true ⟨htier, hcarried⟩

/-- One turn: a client connects inline on the turn of the first domain and
whenever no client waits, and otherwise a spare is described. -/
theorem Turning.turn (hbalance : config.cfBalance = true)
    (hnodup : (tierDomains config tier).Nodup) {others : List String}
    (hdomains : tierDomains config tier = first :: second :: others)
    (hrecord : ∀ zone, second ≠ kwsRecord dc zone)
    (hturning : Turning config width tier dc second pool) :
    ∃ next, Leads config width pool next ∧ Turning config width tier dc second next ∧
      next.counter tier = width.wrappingAdd (pool.counter tier) 1 ∧
      load pool tier first ≤ load next tier first ∧
      (pool.counter tier % (tierDomains config tier).length = 0 →
        load pool tier first < load next tier first) := by
  have htwo : 2 ≤ (tierDomains config tier).length := by simp [hdomains]
  by_cases hdescribe : pool.clients ≠ [] ∧
      pool.counter tier % (tierDomains config tier).length ≠ 0
  · obtain ⟨next, hleads, hnext, hcounter, hserved⟩ :=
      hturning.describe hbalance htwo hdescribe.1 hdescribe.2
    have hload : load next tier first = load pool tier first :=
      congrArg (List.countP _) hserved
    refine ⟨next, hleads, hnext, hcounter, Nat.le_of_eq hload.symm, fun hzero => ?_⟩
    exact absurd hzero hdescribe.2
  · have hindex : pool.counter tier % (tierDomains config tier).length <
        (tierDomains config tier).length := Nat.mod_lt _ (by omega)
    have hne : (tierDomains config tier)[pool.counter tier % (tierDomains config tier).length] ≠
        second := by
      intro heq
      have hone : (tierDomains config tier)[1] = second := by simp [hdomains]
      have hturn := (hnodup.getElem_inj_iff).mp (heq.trans hone.symm)
      exact hdescribe ⟨hturning.waits hturn, by omega⟩
    obtain ⟨next, hleads, hnext, hcounter, ws, hserved⟩ :=
      hturning.inline hbalance htwo hrecord (List.getElem?_eq_getElem hindex) hne
    refine ⟨next, hleads, hnext, hcounter, load_le_of_served hserved, fun hzero => ?_⟩
    have hfirst : (tierDomains config tier)[pool.counter tier %
        (tierDomains config tier).length] = first := by
      simp only [hzero]
      simp [hdomains]
    rw [hfirst] at hserved
    exact load_lt_of_carriedBy hserved rfl (carriedBy_inline tier dc ws first)

/-- The first domain carries a client in every round of the rotation. -/
theorem turns_lead (hbalance : config.cfBalance = true)
    (hnodup : (tierDomains config tier).Nodup) {others : List String}
    (hdomains : tierDomains config tier = first :: second :: others)
    (hrecord : ∀ zone, second ≠ kwsRecord dc zone) (turns : Nat) :
    ∃ pool, Leads config width .start pool ∧ Turning config width tier dc second pool ∧
      turns ≤ (tierDomains config tier).length * load pool tier first ∧
      (pool.counter tier % (tierDomains config tier).length ≠ 0 →
        turns + ((tierDomains config tier).length -
          pool.counter tier % (tierDomains config tier).length) ≤
            (tierDomains config tier).length * load pool tier first) := by
  have htwo : 2 ≤ (tierDomains config tier).length := by simp [hdomains]
  induction turns with
  | zero =>
      have hcounter : CfPool.start.counter tier = 0 := by cases tier <;> rfl
      refine ⟨.start, .refl _, ⟨rfl, nofun, ?_, ?_, nofun⟩, Nat.zero_le _, ?_⟩
      · rw [hcounter]
        exact Nat.zero_le _
      · simp [hcounter]
      · simp [hcounter]
  | succ turns ih =>
      obtain ⟨pool, hleads, hturning, hround, hpart⟩ := ih
      obtain ⟨next, hturn, hnext, hcounter, hle, hlt⟩ :=
        hturning.turn hbalance hnodup hdomains hrecord
      refine ⟨next, hleads.trans hturn, hnext, ?_⟩
      have hmod := wrappingAdd_one_mod htwo hturning.counter_le
      rw [← hcounter] at hmod
      have hturns : pool.counter tier % (tierDomains config tier).length <
          (tierDomains config tier).length := Nat.mod_lt _ (by omega)
      generalize (tierDomains config tier).length = count at *
      by_cases hzero : pool.counter tier % count = 0
      · have hmul : count * (load pool tier first + 1) ≤ count * load next tier first :=
          Nat.mul_le_mul_left _ (hlt hzero)
        rw [Nat.mul_succ] at hmul
        constructor <;> omega
      · have hmul : count * load pool tier first ≤ count * load next tier first :=
          Nat.mul_le_mul_left _ hle
        have hroom := hpart hzero
        constructor <;> omega

theorem exists_dc_not_record (name : String) : ∃ dc, ∀ zone, name ≠ kwsRecord dc zone := by
  by_cases hone : ∃ zone, name = kwsRecord 1 zone
  · obtain ⟨zone, rfl⟩ := hone
    exact ⟨2, fun other => kwsRecord_one_ne_two zone other⟩
  · exact ⟨1, fun zone heq => hone ⟨zone, heq⟩⟩

end Runs

/-! ## Pool hits -/

/-- One spare of a Worker is idle and nothing else is going on. -/
structure Spared (dc : Nat) (domain : String) (pool : CfPool) : Prop where
  idle : ∃ entry, pool.idle (.worker, dc, false) = [entry] ∧ entry.domain = domain
  refills : pool.refills = []
  clients : pool.clients = []
  free : pool.refilling (.worker, dc, false) = false

def hitLabels (dc : Nat) : List CfLabel :=
  [.arrive .worker dc false "", .get 0 0 allOpen, .prefetch 0, .refillMeasure 0, .refillDial 0 true,
    .refillStore 0 0, .refillRelease 0]

theorem Spared.hit {config : Config} {width : PointerWidth} {dc : Nat} {domain : String}
    {pool : CfPool} (hsize : config.poolSize ≠ 0) (hworkers : config.cfWorkerDomains ≠ [])
    (hspared : Spared dc domain pool) :
    ∃ next, Leads config width pool next ∧ Spared dc domain next ∧
      ∃ ws, next.served = ((.worker, dc, false), domain, ws) :: pool.served := by
  obtain ⟨⟨entry, hidle, rfl⟩, hrefills, hclients, hfree⟩ := hspared
  have hbudget : cfBudget config = 1 := by
    simp [cfBudget, cfPoolMax]
    omega
  obtain ⟨next, hrun, hnext⟩ : ∃ next,
      (cfSystem config width).runFrom pool (hitLabels dc) = some next ∧
      (∃ spare, next.idle (.worker, dc, false) = [spare] ∧ spare.domain = entry.domain) ∧
      next.refills = [] ∧ next.clients = [] ∧ next.refilling (.worker, dc, false) = false ∧
      next.served = ((.worker, dc, false), entry.domain, entry.ws) :: pool.served := by
    simp [hitLabels, System.runFrom, cfSystem, cfStep, arrive, tierDomains, hworkers, CfLabel.index,
      hclients, clientStep, cfGet, CfClient.key, hidle, takeFreshCf, allOpen, CfPool.setClient,
      cfPrefetch, hsize, CfEntry.target, CfTarget.key, hfree, hrefills, CfPool.dropClient,
      cfRefillStep, cfRefillMeasure, setCfBucket, hbudget, CfPool.setRefill, cfRefillStore,
      cfRefillRelease, CfTarget.entry]
  obtain ⟨hspare, hrefills, hclients, hfree, hserved⟩ := hnext
  refine ⟨next, ⟨hitLabels dc, ?_, hrun⟩, ⟨hspare, hrefills, hclients, hfree⟩, _, hserved⟩
  simp [hitLabels, CfLabel.Succeeds]

theorem Spared.hits (config : Config) (width : PointerWidth) {dc : Nat} {domain : String}
    {pool : CfPool} (hsize : config.poolSize ≠ 0) (hworkers : config.cfWorkerDomains ≠ [])
    (hspared : Spared dc domain pool) (clients : Nat) :
    ∃ next, Leads config width pool next ∧ Spared dc domain next ∧
      clients ≤ load next .worker domain ∧
      ∀ other, other ≠ domain → load next .worker other = load pool .worker other := by
  induction clients with
  | zero => exact ⟨pool, .refl pool, hspared, Nat.zero_le _, fun _ _ => rfl⟩
  | succ clients ih =>
      obtain ⟨middle, hleads, hmiddle, hload, hother⟩ := ih
      obtain ⟨next, hhit, hnext, ws, hserved⟩ := hmiddle.hit hsize hworkers
      refine ⟨next, hleads.trans hhit, hnext, ?_, ?_⟩
      · exact Nat.lt_of_le_of_lt hload (load_lt_of_carriedBy hserved rfl (.inl rfl))
      · intro other hne
        rw [← hother other hne]
        unfold load
        rw [hserved, List.countP_cons_of_neg]
        simp [carriedBy, hne.symm]

theorem load_eq_zero {pool : CfPool} {tier : CfTier} {domain : String}
    (hspared : ∀ connection ∈ pool.served, ¬ carriedBy domain connection) :
    load pool tier domain = 0 :=
  List.countP_eq_zero.mpr fun connection hmem hcarried =>
    hspared connection hmem (of_decide_eq_true hcarried).2

theorem not_balances_of_leads {config : Config} {width : PointerWidth} {tier : CfTier}
    {heavy light : String} (hheavy : heavy ∈ tierDomains config tier)
    (hlight : light ∈ tierDomains config tier)
    (hleads : ∀ bound, ∃ pool, Leads config width .start pool ∧
      load pool tier light + bound < load pool tier heavy) : ¬ Balances config width tier := by
  rintro ⟨bound, hbound⟩
  obtain ⟨pool, ⟨labels, hsucceeds, hrun⟩, hload⟩ := hleads bound
  have hle := hbound labels pool hrun hsucceeds heavy hheavy light hlight
  omega

/-- Whatever the configuration, `--cf-balance` bounds no difference between the
loads of a tier's domains. -/
theorem cf_balance_unbounded (config : Config) (width : PointerWidth) (tier : CfTier)
    (hbalance : config.cfBalance = true) (htwo : 2 ≤ (tierDomains config tier).length)
    (hnodup : (tierDomains config tier).Nodup) : ¬ Balances config width tier := by
  match hdomains : tierDomains config tier with
  | [] | [_] => simp [hdomains] at htwo
  | first :: second :: others =>
      obtain ⟨dc, hrecord⟩ := exists_dc_not_record second
      refine not_balances_of_leads (hdomains ▸ List.mem_cons_self)
        (hdomains ▸ List.mem_cons_of_mem _ List.mem_cons_self) fun bound => ?_
      obtain ⟨pool, hleads, hturning, hround, -⟩ :=
        turns_lead hbalance hnodup hdomains hrecord
          ((tierDomains config tier).length * (bound + 1))
      refine ⟨pool, hleads, ?_⟩
      have hload : bound + 1 ≤ load pool tier first :=
        Nat.le_of_mul_le_mul_left hround (by omega)
      rw [load_eq_zero hturning.spared]
      omega

/-- Two Workers behind `--cf-balance`, and room for one pooled connection. -/
def twoWorkersConfig : Config :=
  { poolSize := 1, cfBalance := true, cfWorkerDomains := ["a.example", "b.example"] }

theorem cf_balance_unbounded_twoWorkers : ¬ Balances twoWorkersConfig .bits64 .worker :=
  cf_balance_unbounded twoWorkersConfig .bits64 .worker rfl (by decide) (by decide)

/-- The first client connects through the first Worker and leaves a spare of the
second, which answers every later client and is reopened each time. -/
theorem twoWorkers_hits_unbounded :
    twoWorkersConfig.cfBalance = true ∧
      tierDomains twoWorkersConfig .worker = ["a.example", "b.example"] ∧
      ∀ bound, ∃ labels pool, (cfSystem twoWorkersConfig .bits64).run labels = some pool ∧
        (∀ label ∈ labels, label.Succeeds) ∧
        load pool .worker "a.example" + bound < load pool .worker "b.example" := by
  refine ⟨rfl, rfl, ?_⟩
  intro bound
  have hfirst : ∃ pool, Leads twoWorkersConfig .bits64 .start pool ∧ Spared 2 "b.example" pool ∧
      load pool .worker "a.example" = 1 := by
    refine ⟨_, ⟨[.arrive .worker 2 false "", .get 0 0 allOpen, .rotate 0, .dial 0 (.connected ()),
      .describe 0, .prefetch 0, .refillMeasure 0, .refillDial 0 true, .refillStore 0 0,
      .refillRelease 0], ?_, rfl⟩, ⟨⟨_, rfl, rfl⟩, rfl, rfl, rfl⟩, rfl⟩
    simp [CfLabel.Succeeds]
  obtain ⟨pool, hleads, hspared, hload⟩ := hfirst
  obtain ⟨next, hhits, -, hnext, hother⟩ :=
    hspared.hits twoWorkersConfig .bits64 (by decide) (by decide) (bound + 2)
  obtain ⟨labels, hsucceeds, hrun⟩ := hleads.trans hhits
  refine ⟨labels, next, hrun, hsucceeds, ?_⟩
  rw [hother "a.example" (by decide), hload]
  omega

end TgWsProxy.Pool
