import TgWsProxy.Cloudflare.Attempts
import TgWsProxy.Config.Model
import TgWsProxy.Foundation.Transition

/-!
# The pool of Cloudflare connections

A client that reaches a Cloudflare tier takes an idle connection or walks the
tier's domains inline; either way a successful connection describes a target
that a background task reopens. As in the direct pool, a step is what the source
does between two awaits under one lock. The shared rotation counters and the log
of background dials are part of the state.
-/

namespace TgWsProxy.Pool

open Foundation.Machine Foundation.Transition TgWsProxy.Cloudflare

inductive CfTier
  | worker
  | proxy
  deriving DecidableEq, Repr

abbrev CfKey := CfTier × Nat × Bool

/-- Everything a background refill needs to reopen one connection. -/
structure CfTarget where
  tier : CfTier
  dc : Nat
  isMedia : Bool
  dst : String
  domain : String
  skipTlsVerify : Bool
  connectTimeout : Nat
  disableTls : Bool
  deriving DecidableEq, Repr

def CfTarget.key (target : CfTarget) : CfKey := (target.tier, target.dc, target.isMedia)

/-- A pooled connection, with what its replacement needs. -/
structure CfEntry where
  ws : Nat
  created : Nat
  domain : String
  dst : String
  skipTlsVerify : Bool
  connectTimeout : Nat
  disableTls : Bool
  deriving DecidableEq, Repr

inductive CfRefillPhase
  | reserved
  | dialing
  | dialed (ws : Nat)
  | releasing
  deriving DecidableEq, Repr

structure CfRefillTask where
  target : CfTarget
  phase : CfRefillPhase
  deriving DecidableEq, Repr

/-- Where a client stands in `cf_worker` or `cf_proxy`. -/
inductive CfPhase
  | entered
  | rotated (firstDomain : Nat)
  | missed
  | walkingRecords (record : String) (attempts : CfAttempts)
  | walkingWorkers (domain : String) (rest : List String)
  | connected (domain : String)
  | prefetching (target : CfTarget)

structure CfClient where
  tier : CfTier
  dc : Nat
  isMedia : Bool
  dst : String
  phase : CfPhase

def CfClient.key (client : CfClient) : CfKey := (client.tier, client.dc, client.isMedia)

/-- One dial of `cf_connect_one`: the key it is for and the hostname dialled. -/
structure CfDial where
  key : CfKey
  hostname : String
  deriving DecidableEq, Repr

structure CfPool where
  idle : CfKey → List CfEntry
  refilling : CfKey → Bool
  refills : List CfRefillTask
  clients : List CfClient
  workerCounter : Nat
  proxyCounter : Nat
  /-- Background dials, latest first. -/
  dials : List CfDial
  /-- Connections that clients obtained from a tier, and the name each runs
  through, latest first. -/
  served : List (CfKey × String × Nat)
  /-- The identity of the next connection that is opened. -/
  nextWs : Nat

def cfPoolMax : Nat := 1

def cfBudget (config : Config) : Nat := min cfPoolMax config.poolSize

def tierDomains (config : Config) : CfTier → List String
  | .worker => config.cfWorkerDomains
  | .proxy => config.cfDomains

/-! ## Shared state -/

def setCfBucket (idle : CfKey → List CfEntry) (key : CfKey) (bucket : List CfEntry) :
    CfKey → List CfEntry :=
  fun other => if other = key then bucket else idle other

/-- `balance_offset` on the counter of a tier. -/
def rotate (config : Config) (width : PointerWidth) (pool : CfPool) (tier : CfTier) :
    Nat × CfPool :=
  match tier with
  | .worker =>
      let (first, counter) :=
        balanceOffset width config.cfWorkerDomains config.cfBalance pool.workerCounter
      (first, { pool with workerCounter := counter })
  | .proxy =>
      let (first, counter) :=
        balanceOffset width config.cfDomains config.cfBalance pool.proxyCounter
      (first, { pool with proxyCounter := counter })

def CfPool.setClient (pool : CfPool) (index : Nat) (client : CfClient) (phase : CfPhase) : CfPool :=
  { pool with clients := pool.clients.set index { client with phase } }

/-- The client leaves the tier. -/
def CfPool.dropClient (pool : CfPool) (index : Nat) : CfPool :=
  { pool with clients := pool.clients.eraseIdx index }

def CfPool.setRefill (pool : CfPool) (index : Nat) (task : CfRefillTask) (phase : CfRefillPhase) :
    CfPool :=
  { pool with refills := pool.refills.set index { task with phase } }

/-! ## Clients -/

/-- The loop of `cf_get`. -/
def takeFreshCf (maxAge now : Nat) (closed : Nat → Bool) :
    List CfEntry → Option CfEntry × List CfEntry
  | [] => (none, [])
  | entry :: rest =>
      if maxAge < now - entry.created ∨ closed entry.ws then takeFreshCf maxAge now closed rest
      else (some entry, rest)

/-- The target that `cf_get` derives from the entry it takes. -/
def CfEntry.target (entry : CfEntry) (client : CfClient) : CfTarget where
  tier := client.tier
  dc := client.dc
  isMedia := client.isMedia
  dst := entry.dst
  domain := entry.domain
  skipTlsVerify := entry.skipTlsVerify
  connectTimeout := entry.connectTimeout
  disableTls := entry.disableTls

/-- `cf_get` under the bucket lock; `onMiss` is what the tier does without a
fresh entry. -/
def cfGet (config : Config) (pool : CfPool) (index : Nat) (client : CfClient) (now : Nat)
    (closed : Nat → Bool) (onMiss : CfPool → CfPool) : CfPool :=
  let (taken, bucket) := takeFreshCf config.poolMaxAge now closed (pool.idle client.key)
  let pool := { pool with idle := setCfBucket pool.idle client.key bucket }
  match taken with
  | some entry =>
      { pool.setClient index client (.prefetching (entry.target client)) with
        served := (client.key, entry.domain, entry.ws) :: pool.served }
  | none => onMiss pool

/-- `cf_target`: the connection the pool should reopen, off the one that just
worked through `domain`. -/
def cfTarget (config : Config) (width : PointerWidth) (pool : CfPool) (client : CfClient)
    (domain : String) : CfTarget × CfPool :=
  let (domain, pool) :=
    if config.cfBalance then
      let (first, pool) := rotate config width pool client.tier
      -- The name from the rotation replaces the one that just worked, as it stands.
      (((domainOrder (tierDomains config client.tier) first).head?).getD domain, pool)
    else (domain, pool)
  ({ tier := client.tier
     dc := client.dc
     isMedia := client.isMedia
     dst := if client.tier = .worker then client.dst else ""
     domain
     skipTlsVerify := config.skipTlsVerify
     connectTimeout := config.cfConnectTimeout
     disableTls := config.cfDisableTls }, pool)

/-- `cf_prefetch`: reserve the bucket and spawn its refill task. -/
def cfPrefetch (config : Config) (pool : CfPool) (target : CfTarget) : CfPool :=
  if config.poolSize = 0 ∨ pool.refilling target.key = true then pool
  else
    { pool with
      refilling := fun other => if other = target.key then true else pool.refilling other
      refills := pool.refills ++ [⟨target, .reserved⟩] }

/-- The next record of the inline walk of `cf_proxy`, if there is one. -/
def walkRecords (pool : CfPool) (index : Nat) (client : CfClient) (attempts : CfAttempts) :
    CfPool :=
  match attempts.nextDomain with
  | (some record, attempts) => pool.setClient index client (.walkingRecords record attempts)
  | (none, _) => pool.dropClient index

/-- The next domain of the walk of `cf_worker`, if there is one. -/
def walkWorkers (pool : CfPool) (index : Nat) (client : CfClient) : List String → CfPool
  | domain :: rest => pool.setClient index client (.walkingWorkers domain rest)
  | [] => pool.dropClient index

/-- An inline dial connected through `domain`. -/
def inlineConnected (pool : CfPool) (index : Nat) (client : CfClient) (domain : String) : CfPool :=
  { pool.setClient index client (.connected domain) with
    served := (client.key, domain, pool.nextWs) :: pool.served
    nextWs := pool.nextWs + 1 }

/-- What one dial of the inline walk of `cf_proxy` leads to. -/
def recordDialed (pool : CfPool) (index : Nat) (client : CfClient) (record : String)
    (attempts : CfAttempts) : WsConnectResult Unit → CfPool
  | .connected _ => inlineConnected pool index client record
  | .redirect _ | .failed _ => walkRecords pool index client attempts
  | .timedOut | .connectTimedOut _ => walkRecords pool index client attempts.noteTimedOut

/-- What one dial of the walk of `cf_worker` leads to. -/
def workerDialed (pool : CfPool) (index : Nat) (client : CfClient) (domain : String)
    (rest : List String) : WsConnectResult Unit → CfPool
  | .connected _ => inlineConnected pool index client domain
  | .redirect _ | .failed _ | .timedOut | .connectTimedOut _ =>
      walkWorkers pool index client rest

/-! ## Refill tasks -/

/-- The hostname that `cf_connect_one` dials: a Worker's own domain, or the
target's domain as it stands. -/
def cfConnectOne (target : CfTarget) : CfDial := ⟨target.key, target.domain⟩

def cfRefillMeasure (config : Config) (pool : CfPool) (index : Nat) (task : CfRefillTask) :
    CfPool :=
  if cfBudget config ≤ (pool.idle task.target.key).length then pool.setRefill index task .releasing
  else
    { pool.setRefill index task .dialing with dials := cfConnectOne task.target :: pool.dials }

def CfTarget.entry (target : CfTarget) (ws now : Nat) : CfEntry where
  ws := ws
  created := now
  domain := target.domain
  dst := target.dst
  skipTlsVerify := target.skipTlsVerify
  connectTimeout := target.connectTimeout
  disableTls := target.disableTls

def cfRefillStore (config : Config) (pool : CfPool) (index : Nat) (task : CfRefillTask)
    (ws now : Nat) : CfPool :=
  let bucket := pool.idle task.target.key
  let pool := pool.setRefill index task .releasing
  if bucket.length < cfBudget config then
    { pool with
      idle := setCfBucket pool.idle task.target.key (task.target.entry ws now :: bucket) }
  else pool

def cfRefillRelease (pool : CfPool) (index : Nat) (task : CfRefillTask) : CfPool :=
  { pool with
    refilling := fun other => if other = task.target.key then false else pool.refilling other
    refills := pool.refills.eraseIdx index }

/-! ## The system -/

inductive CfLabel
  | arrive (tier : CfTier) (dc : Nat) (isMedia : Bool) (dst : String)
  | rotate (index : Nat)
  | get (index now : Nat) (closed : Nat → Bool)
  | dial (index : Nat) (result : WsConnectResult Unit)
  | skipCooling (index : Nat)
  | describe (index : Nat)
  | prefetch (index : Nat)
  | refillMeasure (index : Nat)
  | refillDial (index : Nat) (connected : Bool)
  | refillStore (index now : Nat)
  | refillRelease (index : Nat)

/-- What a client does next. `cf_proxy` rotates before it looks into the pool,
`cf_worker` after a miss; a Worker in its failure cooldown is skipped. -/
def clientStep (config : Config) (width : PointerWidth) (pool : CfPool) (index : Nat)
    (client : CfClient) : CfLabel → Option CfPool
  | .rotate _ =>
      match client.tier, client.phase with
      | .proxy, .entered =>
          let (first, pool) := rotate config width pool .proxy
          some (pool.setClient index client (.rotated first))
      | .worker, .missed =>
          let (first, pool) := rotate config width pool .worker
          some (walkWorkers pool index client (domainOrder config.cfWorkerDomains first))
      | _, _ => none
  | .get _ now closed =>
      match client.tier, client.phase with
      | .proxy, .rotated first =>
          some (cfGet config pool index client now closed fun pool =>
            walkRecords pool index client
              (CfAttempts.withOffset client.dc config.cfDomains first))
      | .worker, .entered =>
          some (cfGet config pool index client now closed fun pool =>
            pool.setClient index client .missed)
      | _, _ => none
  | .dial _ result =>
      match client.phase with
      | .walkingRecords record attempts =>
          some (recordDialed pool index client record attempts result)
      | .walkingWorkers domain rest => some (workerDialed pool index client domain rest result)
      | _ => none
  | .skipCooling _ =>
      match client.phase with
      | .walkingWorkers _ rest => some (walkWorkers pool index client rest)
      | _ => none
  | .describe _ =>
      match client.phase with
      | .connected domain =>
          let (target, pool) := cfTarget config width pool client domain
          some (pool.setClient index client (.prefetching target))
      | _ => none
  | .prefetch _ =>
      match client.phase with
      | .prefetching target => some ((cfPrefetch config pool target).dropClient index)
      | _ => none
  | _ => none

/-- What a refill task does next. -/
def cfRefillStep (config : Config) (pool : CfPool) (index : Nat) (task : CfRefillTask) :
    CfLabel → Option CfPool
  | .refillMeasure _ =>
      if task.phase = .reserved then some (cfRefillMeasure config pool index task) else none
  | .refillDial _ connected =>
      if task.phase = .dialing then
        if connected then
          some { pool.setRefill index task (.dialed pool.nextWs) with nextWs := pool.nextWs + 1 }
        else some (pool.setRefill index task .releasing)
      else none
  | .refillStore _ now =>
      match task.phase with
      | .dialed ws => some (cfRefillStore config pool index task ws now)
      | _ => none
  | .refillRelease _ =>
      if task.phase = .releasing then some (cfRefillRelease pool index task) else none
  | _ => none

/-- A client reaches a tier; without configured domains the tier returns at once. -/
def arrive (config : Config) (pool : CfPool) (tier : CfTier) (dc : Nat) (isMedia : Bool)
    (dst : String) : CfPool :=
  if tierDomains config tier = [] then pool
  else
    { pool with
      clients := pool.clients ++ [⟨tier, dc, isMedia, (defaultDcIp dc).getD dst, .entered⟩] }

/-- The task that a label moves. -/
def CfLabel.index : CfLabel → Nat
  | .arrive _ _ _ _ => 0
  | .rotate index | .get index _ _ | .dial index _ | .skipCooling index | .describe index
  | .prefetch index | .refillMeasure index | .refillDial index _ | .refillStore index _
  | .refillRelease index => index

def cfStep (config : Config) (width : PointerWidth) (pool : CfPool) (label : CfLabel) :
    Option CfPool :=
  match label with
  | .arrive tier dc isMedia dst => some (arrive config pool tier dc isMedia dst)
  | .rotate _ | .get _ _ _ | .dial _ _ | .skipCooling _ | .describe _ | .prefetch _ =>
      (pool.clients[label.index]?).bind fun client =>
        clientStep config width pool label.index client label
  | .refillMeasure _ | .refillDial _ _ | .refillStore _ _ | .refillRelease _ =>
      (pool.refills[label.index]?).bind fun task => cfRefillStep config pool label.index task label

def CfPool.start : CfPool where
  idle := fun _ => []
  refilling := fun _ => false
  refills := []
  clients := []
  workerCounter := 0
  proxyCounter := 0
  dials := []
  served := []
  nextWs := 0

def cfSystem (config : Config) (width : PointerWidth) : System CfPool CfLabel where
  start := CfPool.start
  step := cfStep config width

/-- Everything a step can do, with its guards. -/
inductive CfMoves (config : Config) (width : PointerWidth) (pool : CfPool) :
    CfLabel → CfPool → Prop
  | arrive (tier : CfTier) (dc : Nat) (isMedia : Bool) (dst : String) :
      CfMoves config width pool (.arrive tier dc isMedia dst)
        (arrive config pool tier dc isMedia dst)
  | rotateProxy {index : Nat} {client : CfClient} (hclient : pool.clients[index]? = some client)
      (hphase : client.phase = .entered) :
      CfMoves config width pool (.rotate index)
        ((rotate config width pool .proxy).2.setClient index client
          (.rotated (rotate config width pool .proxy).1))
  | rotateWorker {index : Nat} {client : CfClient} (hclient : pool.clients[index]? = some client)
      (htier : client.tier = .worker) (hphase : client.phase = .missed) :
      CfMoves config width pool (.rotate index)
        (walkWorkers (rotate config width pool .worker).2 index client
          (domainOrder config.cfWorkerDomains (rotate config width pool .worker).1))
  | getProxy {index now first : Nat} {client : CfClient} {closed : Nat → Bool}
      (hclient : pool.clients[index]? = some client) (hphase : client.phase = .rotated first) :
      CfMoves config width pool (.get index now closed)
        (cfGet config pool index client now closed fun pool =>
          walkRecords pool index client
            (CfAttempts.withOffset client.dc config.cfDomains first))
  | getWorker {index now : Nat} {client : CfClient} {closed : Nat → Bool}
      (hclient : pool.clients[index]? = some client) (hphase : client.phase = .entered) :
      CfMoves config width pool (.get index now closed)
        (cfGet config pool index client now closed fun pool => pool.setClient index client .missed)
  | dialRecord {index : Nat} {client : CfClient} {record : String} {attempts : CfAttempts}
      {result : WsConnectResult Unit} (hclient : pool.clients[index]? = some client)
      (hphase : client.phase = .walkingRecords record attempts) :
      CfMoves config width pool (.dial index result)
        (recordDialed pool index client record attempts result)
  | dialWorker {index : Nat} {client : CfClient} {domain : String} {rest : List String}
      {result : WsConnectResult Unit} (hclient : pool.clients[index]? = some client)
      (hphase : client.phase = .walkingWorkers domain rest) :
      CfMoves config width pool (.dial index result)
        (workerDialed pool index client domain rest result)
  | skipCooling {index : Nat} {client : CfClient} {domain : String} {rest : List String}
      (hclient : pool.clients[index]? = some client)
      (hphase : client.phase = .walkingWorkers domain rest) :
      CfMoves config width pool (.skipCooling index) (walkWorkers pool index client rest)
  | describe {index : Nat} {client : CfClient} {domain : String}
      (hclient : pool.clients[index]? = some client) (hphase : client.phase = .connected domain) :
      CfMoves config width pool (.describe index)
        ((cfTarget config width pool client domain).2.setClient index client
          (.prefetching (cfTarget config width pool client domain).1))
  | prefetch {index : Nat} {client : CfClient} {target : CfTarget}
      (hclient : pool.clients[index]? = some client)
      (hphase : client.phase = .prefetching target) :
      CfMoves config width pool (.prefetch index) ((cfPrefetch config pool target).dropClient index)
  | refillMeasure {index : Nat} {task : CfRefillTask} (htask : pool.refills[index]? = some task)
      (hphase : task.phase = .reserved) :
      CfMoves config width pool (.refillMeasure index) (cfRefillMeasure config pool index task)
  | refillConnected {index : Nat} {task : CfRefillTask} (htask : pool.refills[index]? = some task)
      (hphase : task.phase = .dialing) :
      CfMoves config width pool (.refillDial index true)
        { pool.setRefill index task (.dialed pool.nextWs) with nextWs := pool.nextWs + 1 }
  | refillFailed {index : Nat} {task : CfRefillTask} (htask : pool.refills[index]? = some task)
      (hphase : task.phase = .dialing) :
      CfMoves config width pool (.refillDial index false) (pool.setRefill index task .releasing)
  | refillStore {index ws now : Nat} {task : CfRefillTask}
      (htask : pool.refills[index]? = some task) (hphase : task.phase = .dialed ws) :
      CfMoves config width pool (.refillStore index now)
        (cfRefillStore config pool index task ws now)
  | refillRelease {index : Nat} {task : CfRefillTask} (htask : pool.refills[index]? = some task)
      (hphase : task.phase = .releasing) :
      CfMoves config width pool (.refillRelease index) (cfRefillRelease pool index task)

theorem clientStep_moves {config : Config} {width : PointerWidth} {pool next : CfPool}
    {client : CfClient} {label : CfLabel} (hclient : pool.clients[label.index]? = some client)
    (hstep : clientStep config width pool label.index client label = some next) :
    CfMoves config width pool label next := by
  cases label with
  | rotate _ =>
      simp only [clientStep] at hstep
      split at hstep
      next htier hphase =>
        cases hstep
        exact .rotateProxy hclient hphase
      next htier hphase =>
        cases hstep
        exact .rotateWorker hclient htier hphase
      next => cases hstep
  | get _ now closed =>
      simp only [clientStep] at hstep
      split at hstep
      next first htier hphase =>
        cases hstep
        exact .getProxy hclient hphase
      next htier hphase =>
        cases hstep
        exact .getWorker hclient hphase
      next => cases hstep
  | dial _ result =>
      simp only [clientStep] at hstep
      split at hstep
      next record attempts hphase =>
        cases hstep
        exact .dialRecord hclient hphase
      next domain rest hphase =>
        cases hstep
        exact .dialWorker hclient hphase
      next => cases hstep
  | skipCooling _ =>
      simp only [clientStep] at hstep
      split at hstep
      next domain rest hphase =>
        cases hstep
        exact .skipCooling hclient hphase
      next => cases hstep
  | describe _ =>
      simp only [clientStep] at hstep
      split at hstep
      next domain hphase =>
        cases hstep
        exact .describe hclient hphase
      next => cases hstep
  | prefetch _ =>
      simp only [clientStep] at hstep
      split at hstep
      next target hphase =>
        cases hstep
        exact .prefetch hclient hphase
      next => cases hstep
  | _ => cases hstep

theorem cfRefillStep_moves {config : Config} {width : PointerWidth} {pool next : CfPool}
    {task : CfRefillTask} {label : CfLabel} (htask : pool.refills[label.index]? = some task)
    (hstep : cfRefillStep config pool label.index task label = some next) :
    CfMoves config width pool label next := by
  cases label with
  | refillMeasure _ =>
      simp only [cfRefillStep] at hstep
      split at hstep
      next hphase =>
        cases hstep
        exact .refillMeasure htask hphase
      next => cases hstep
  | refillDial _ connected =>
      simp only [cfRefillStep] at hstep
      split at hstep
      next hphase =>
        cases connected with
        | true =>
            cases hstep
            exact .refillConnected htask hphase
        | false =>
            cases hstep
            exact .refillFailed htask hphase
      next => cases hstep
  | refillStore _ now =>
      simp only [cfRefillStep] at hstep
      split at hstep
      next ws hphase =>
        cases hstep
        exact .refillStore htask hphase
      next => cases hstep
  | refillRelease _ =>
      simp only [cfRefillStep] at hstep
      split at hstep
      next hphase =>
        cases hstep
        exact .refillRelease htask hphase
      next => cases hstep
  | _ => cases hstep

theorem cfStep_moves {config : Config} {width : PointerWidth} {pool next : CfPool}
    {label : CfLabel} (hstep : cfStep config width pool label = some next) :
    CfMoves config width pool label next := by
  cases label with
  | arrive tier dc isMedia dst =>
      cases hstep
      exact .arrive tier dc isMedia dst
  | rotate _ | get _ _ _ | dial _ _ | skipCooling _ | describe _ | prefetch _ =>
      obtain ⟨client, hclient, hmove⟩ := Option.bind_eq_some_iff.mp hstep
      exact clientStep_moves hclient hmove
  | refillMeasure _ | refillDial _ _ | refillStore _ _ | refillRelease _ =>
      obtain ⟨task, htask, hmove⟩ := Option.bind_eq_some_iff.mp hstep
      exact cfRefillStep_moves htask hmove

end TgWsProxy.Pool
