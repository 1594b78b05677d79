import TgWsProxy.Pool.CfLedger

/-!
# Origins in the Cloudflare pool

Names and settings travel through the pool: from a client into a target, from the target
into a refill task and its dial, from there into an entry and back into the next target.
For everything that a step leaves in the state, this says where it was before the step.
-/

namespace TgWsProxy.Pool

open Foundation.Machine TgWsProxy.Cloudflare

/-- The phases that a client can be in after a step of the pool. -/
inductive CfClient.Turns (config : Config) (width : PointerWidth) (pool : CfPool)
    (client : CfClient) : CfPhase → Prop
  | same : client.Turns config width pool client.phase
  | rotated (first : Nat) : client.Turns config width pool (.rotated first)
  | missed : client.Turns config width pool .missed
  | firstRecord {first : Nat} {record : String} {next : CfAttempts}
      (hnext : (CfAttempts.withOffset client.dc config.cfDomains first).nextDomain =
        (some record, next)) :
      client.Turns config width pool (.walkingRecords record next)
  | nextRecord {tried record : String} {attempts next : CfAttempts}
      (hphase : client.phase = .walkingRecords tried attempts)
      (hnext : attempts.nextDomain = (some record, next)) :
      client.Turns config width pool (.walkingRecords record next)
  | recordAfterTimeout {tried record : String} {attempts next : CfAttempts}
      (hphase : client.phase = .walkingRecords tried attempts)
      (hnext : attempts.noteTimedOut.nextDomain = (some record, next)) :
      client.Turns config width pool (.walkingRecords record next)
  | firstWorker (htier : client.tier = .worker) (domain : String) (rest : List String) :
      client.Turns config width pool (.walkingWorkers domain rest)
  | nextWorker {tried domain : String} {rest : List String}
      (hphase : client.phase = .walkingWorkers tried (domain :: rest)) :
      client.Turns config width pool (.walkingWorkers domain rest)
  | recordConnected {record : String} {attempts : CfAttempts}
      (hphase : client.phase = .walkingRecords record attempts) :
      client.Turns config width pool (.connected record)
  | workerConnected {domain : String} {rest : List String}
      (hphase : client.phase = .walkingWorkers domain rest) :
      client.Turns config width pool (.connected domain)
  | pooled {entry : CfEntry} (hentry : entry ∈ pool.idle client.key) :
      client.Turns config width pool (.prefetching (entry.target client))
  | described {domain : String} (hphase : client.phase = .connected domain) :
      client.Turns config width pool
        (.prefetching (cfTarget config width pool client domain).1)

/-- What the state `next` holds comes from the state `pool`. -/
structure CfPool.Descends (config : Config) (width : PointerWidth) (pool next : CfPool) :
    Prop where
  clients : ∀ client ∈ next.clients, client.phase = .entered ∨
    ∃ earlier ∈ pool.clients, ∃ phase,
      client = { earlier with phase } ∧ earlier.Turns config width pool phase
  refills : ∀ task ∈ next.refills, (∃ earlier ∈ pool.refills, earlier.target = task.target) ∨
    ∃ client ∈ pool.clients, client.phase = .prefetching task.target
  idle : ∀ key, ∀ entry ∈ next.idle key, entry ∈ pool.idle key ∨
    ∃ task ∈ pool.refills, ∃ ws now, task.target.key = key ∧ entry = task.target.entry ws now
  dials : ∀ dial ∈ next.dials, dial ∈ pool.dials ∨
    ∃ task ∈ pool.refills, dial = cfConnectOne task.target

namespace CfPool.Descends

variable {config : Config} {width : PointerWidth} {pool next : CfPool}

theorem refl (pool : CfPool) : Descends config width pool pool where
  clients client hclient := .inr ⟨client, hclient, client.phase, rfl, .same⟩
  refills task htask := .inl ⟨task, htask, rfl⟩
  idle _ _ hentry := .inl hentry
  dials _ hdial := .inl hdial

/-! ## Parts of a step -/

theorem setClient (hnext : Descends config width pool next) (index : Nat) {other : Nat}
    {client : CfClient} (hclient : pool.clients[other]? = some client) {phase : CfPhase}
    (hturns : client.Turns config width pool phase) :
    Descends config width pool (next.setClient index client phase) where
  clients moved hmoved := by
    rcases List.mem_or_eq_of_mem_set hmoved with hmoved | rfl
    · exact hnext.clients moved hmoved
    · exact .inr ⟨client, List.mem_of_getElem? hclient, phase, rfl, hturns⟩
  refills := hnext.refills
  idle := hnext.idle
  dials := hnext.dials

theorem dropClient (hnext : Descends config width pool next) (index : Nat) :
    Descends config width pool (next.dropClient index) where
  clients client hclient := hnext.clients client (List.mem_of_mem_eraseIdx hclient)
  refills := hnext.refills
  idle := hnext.idle
  dials := hnext.dials

theorem setRefill (hnext : Descends config width pool next) (index : Nat) {other : Nat}
    {task : CfRefillTask} (htask : pool.refills[other]? = some task) (phase : CfRefillPhase) :
    Descends config width pool (next.setRefill index task phase) where
  clients := hnext.clients
  refills moved hmoved := by
    rcases List.mem_or_eq_of_mem_set hmoved with hmoved | rfl
    · exact hnext.refills moved hmoved
    · exact .inl ⟨task, List.mem_of_getElem? htask, rfl⟩
  idle := hnext.idle
  dials := hnext.dials

theorem setIdle (hnext : Descends config width pool next) (key : CfKey) {bucket : List CfEntry}
    (hbucket : ∀ entry ∈ bucket, entry ∈ pool.idle key ∨
      ∃ task ∈ pool.refills, ∃ ws now,
        task.target.key = key ∧ entry = task.target.entry ws now) :
    Descends config width pool { next with idle := setCfBucket next.idle key bucket } where
  clients := hnext.clients
  refills := hnext.refills
  idle other entry hentry := by
    simp only [setCfBucket] at hentry
    split at hentry
    next hother =>
      rw [hother]
      exact hbucket entry hentry
    next => exact hnext.idle other entry hentry
  dials := hnext.dials

theorem rotate (hnext : Descends config width pool next) (tier : CfTier) :
    Descends config width pool (Pool.rotate config width next tier).2 := by
  cases tier <;> exact ⟨hnext.clients, hnext.refills, hnext.idle, hnext.dials⟩

theorem walkRecords (hnext : Descends config width pool next) {index : Nat} {client : CfClient}
    (hclient : pool.clients[index]? = some client) {attempts : CfAttempts}
    (hturns : ∀ record rest, attempts.nextDomain = (some record, rest) →
      client.Turns config width pool (.walkingRecords record rest)) :
    Descends config width pool (Pool.walkRecords next index client attempts) := by
  unfold Pool.walkRecords
  split
  next record rest hrecord => exact hnext.setClient _ hclient (hturns record rest hrecord)
  next => exact hnext.dropClient index

theorem walkWorkers (hnext : Descends config width pool next) {index : Nat} {client : CfClient}
    (hclient : pool.clients[index]? = some client) {domains : List String}
    (hturns : ∀ domain rest, domains = domain :: rest →
      client.Turns config width pool (.walkingWorkers domain rest)) :
    Descends config width pool (Pool.walkWorkers next index client domains) := by
  cases domains with
  | nil => exact hnext.dropClient index
  | cons domain rest => exact hnext.setClient _ hclient (hturns domain rest rfl)

theorem inlineConnected {index : Nat} {client : CfClient}
    (hclient : pool.clients[index]? = some client) {domain : String}
    (hturns : client.Turns config width pool (.connected domain)) :
    Descends config width pool (Pool.inlineConnected pool index client domain) := by
  have hset := (refl pool).setClient index hclient hturns
  exact ⟨hset.clients, hset.refills, hset.idle, hset.dials⟩

theorem cfGet {index : Nat} {client : CfClient} (hclient : pool.clients[index]? = some client)
    (now : Nat) (closed : Nat → Bool) {onMiss : CfPool → CfPool}
    (hmiss : ∀ other, Descends config width pool other →
      Descends config width pool (onMiss other)) :
    Descends config width pool (Pool.cfGet config pool index client now closed onMiss) := by
  unfold Pool.cfGet
  split
  next taken rest htake =>
    obtain ⟨htaken, hrest⟩ := (takeFreshCf_takesFirst htake).mem
    have hidle := (@refl config width pool).setIdle client.key
      fun entry hentry => .inl (hrest entry hentry)
    cases taken with
    | none => exact hmiss _ hidle
    | some entry =>
        have hset := hidle.setClient index hclient (.pooled (htaken entry rfl))
        exact ⟨hset.clients, hset.refills, hset.idle, hset.dials⟩

theorem cfTarget (client : CfClient) (domain : String) :
    Descends config width pool (Pool.cfTarget config width pool client domain).2 := by
  unfold Pool.cfTarget
  cases config.cfBalance with
  | false => exact refl pool
  | true => exact (refl pool).rotate client.tier

theorem cfPrefetch {index : Nat} {client : CfClient}
    (hclient : pool.clients[index]? = some client) {target : CfTarget}
    (hphase : client.phase = .prefetching target) :
    Descends config width pool (Pool.cfPrefetch config pool target) := by
  unfold Pool.cfPrefetch
  split
  next => exact refl pool
  next =>
    have hsame := @refl config width pool
    refine ⟨hsame.clients, ?_, hsame.idle, hsame.dials⟩
    intro task htask
    rcases List.mem_append.mp htask with htask | htask
    · exact hsame.refills task htask
    · rw [List.mem_singleton.mp htask]
      exact .inr ⟨client, List.mem_of_getElem? hclient, hphase⟩

theorem arrive (tier : CfTier) (dc : Nat) (isMedia : Bool) (dst : String) :
    Descends config width pool (Pool.arrive config pool tier dc isMedia dst) := by
  unfold Pool.arrive
  split
  next => exact refl pool
  next =>
    have hsame := @refl config width pool
    refine ⟨?_, hsame.refills, hsame.idle, hsame.dials⟩
    intro client hclient
    rcases List.mem_append.mp hclient with hclient | hclient
    · exact hsame.clients client hclient
    · rw [List.mem_singleton.mp hclient]
      exact .inl rfl

theorem cfRefillMeasure {index : Nat} {task : CfRefillTask}
    (htask : pool.refills[index]? = some task) :
    Descends config width pool (Pool.cfRefillMeasure config pool index task) := by
  unfold Pool.cfRefillMeasure
  split
  next => exact (refl pool).setRefill _ htask .releasing
  next =>
    have hset := (@refl config width pool).setRefill index htask .dialing
    refine ⟨hset.clients, hset.refills, hset.idle, ?_⟩
    intro dial hdial
    rcases List.mem_cons.mp hdial with rfl | hdial
    · exact .inr ⟨task, List.mem_of_getElem? htask, rfl⟩
    · exact .inl hdial

theorem cfRefillStore {index : Nat} {task : CfRefillTask}
    (htask : pool.refills[index]? = some task) (ws now : Nat) :
    Descends config width pool (Pool.cfRefillStore config pool index task ws now) := by
  have hset := (@refl config width pool).setRefill index htask .releasing
  unfold Pool.cfRefillStore
  simp only
  split
  next =>
    apply hset.setIdle task.target.key
    intro entry hentry
    rcases List.mem_cons.mp hentry with rfl | hentry
    · exact .inr ⟨task, List.mem_of_getElem? htask, ws, now, rfl, rfl⟩
    · exact .inl hentry
  next => exact hset

/-! ## Steps -/

theorem of_moves {label : CfLabel} (hmoves : CfMoves config width pool label next) :
    Descends config width pool next := by
  cases hmoves with
  | arrive tier dc isMedia dst => exact .arrive tier dc isMedia dst
  | rotateProxy hclient hphase =>
      exact ((refl pool).rotate .proxy).setClient _ hclient (.rotated _)
  | rotateWorker hclient htier hphase =>
      exact ((refl pool).rotate .worker).walkWorkers hclient fun domain rest _ =>
        .firstWorker htier domain rest
  | getProxy hclient hphase =>
      apply cfGet hclient
      intro other hother
      exact hother.walkRecords hclient fun record rest hrecord => .firstRecord hrecord
  | getWorker hclient hphase =>
      apply cfGet hclient
      intro other hother
      exact hother.setClient _ hclient .missed
  | @dialRecord index client record attempts result hclient hphase =>
      cases result with
      | connected ws => exact inlineConnected hclient (.recordConnected hphase)
      | redirect code | failed reason =>
          exact (refl pool).walkRecords hclient fun _ _ hrecord => .nextRecord hphase hrecord
      | connectTimedOut reason | timedOut =>
          exact (refl pool).walkRecords hclient fun _ _ hrecord =>
            .recordAfterTimeout hphase hrecord
  | @dialWorker index client domain rest result hclient hphase =>
      cases result with
      | connected ws => exact inlineConnected hclient (.workerConnected hphase)
      | redirect code | failed reason | connectTimedOut reason | timedOut =>
          exact (refl pool).walkWorkers hclient fun _ _ hrest => .nextWorker (hrest ▸ hphase)
  | skipCooling hclient hphase =>
      exact (refl pool).walkWorkers hclient fun _ _ hrest => .nextWorker (hrest ▸ hphase)
  | describe hclient hphase => exact (cfTarget _ _).setClient _ hclient (.described hphase)
  | prefetch hclient hphase => exact (cfPrefetch hclient hphase).dropClient _
  | refillMeasure htask hphase => exact cfRefillMeasure htask
  | @refillConnected index task htask hphase =>
      have hset := (@refl config width pool).setRefill index htask (.dialed pool.nextWs)
      exact ⟨hset.clients, hset.refills, hset.idle, hset.dials⟩
  | refillFailed htask hphase => exact (refl pool).setRefill _ htask .releasing
  | refillStore htask hphase => exact cfRefillStore htask _ _
  | refillRelease htask hphase =>
      have hsame := @refl config width pool
      exact ⟨hsame.clients, fun task hmem => hsame.refills task (List.mem_of_mem_eraseIdx hmem),
        hsame.idle, hsame.dials⟩

end CfPool.Descends

end TgWsProxy.Pool
