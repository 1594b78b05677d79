import TgWsProxy.Config.Model
import TgWsProxy.Foundation.Transition

/-!
# The pool of direct WebSocket connections

Client connections, refill tasks and the start-up warm-up touch the idle buckets
concurrently. Every stretch of the source between two awaits that holds the
bucket lock, or the lock of the reservation set, is one step; the label of a
step says which task moves and how its dials turned out. A bucket is listed from
the back of the source's vector, so its head is the next connection handed out.
-/

namespace TgWsProxy.Pool

open Foundation.Transition

/-- Data centre and traffic class. -/
abbrev PoolKey := Nat × Bool

/-- A pooled connection: its identity and the time it was stored. -/
structure PoolEntry where
  ws : Nat
  created : Nat
  deriving DecidableEq, Repr

/-- Where a refill task stands. -/
inductive RefillPhase
  | reserved
  | dialing (needed : Nat)
  | dialed (connections : List Nat)
  | releasing
  deriving DecidableEq, Repr

structure RefillTask where
  key : PoolKey
  targetIp : String
  phase : RefillPhase
  deriving DecidableEq, Repr

/-- Where the warm-up of one bucket stands. -/
inductive WarmupPhase
  | waiting
  | dialing
  | dialed (connections : List Nat)
  deriving DecidableEq, Repr

structure WarmupTask where
  key : PoolKey
  ip : String
  phase : WarmupPhase
  deriving DecidableEq, Repr

structure DirectPool where
  idle : PoolKey → List PoolEntry
  refilling : PoolKey → Bool
  /-- Calls of `get` that have released the bucket lock and are about to
  schedule a refill. -/
  scheduling : List (PoolKey × String)
  refills : List RefillTask
  warmups : List WarmupTask
  /-- Connections handed to clients, latest first. -/
  served : List (PoolKey × PoolEntry)
  /-- The identity of the next connection that is opened. -/
  nextWs : Nat

def warmupBucketConcurrency : Nat := 2

/-- Identities for `count` newly opened connections. -/
def freshConnections (pool : DirectPool) (count : Nat) : List Nat :=
  List.range' pool.nextWs count

/-- `HashMap::entry(key).or_default()` with a new value. -/
def setBucket (idle : PoolKey → List PoolEntry) (key : PoolKey) (bucket : List PoolEntry) :
    PoolKey → List PoolEntry :=
  fun other => if other = key then bucket else idle other

@[simp] theorem setBucket_self (idle : PoolKey → List PoolEntry) (key : PoolKey)
    (bucket : List PoolEntry) : setBucket idle key bucket key = bucket := if_pos rfl

theorem setBucket_of_ne (idle : PoolKey → List PoolEntry) {key other : PoolKey}
    (bucket : List PoolEntry) (hother : other ≠ key) :
    setBucket idle key bucket other = idle other := if_neg hother

/-- Push the connections one after the other. -/
def pushAll (bucket : List PoolEntry) (now : Nat) (connections : List Nat) : List PoolEntry :=
  connections.foldl (fun bucket ws => ⟨ws, now⟩ :: bucket) bucket

/-! ## `get` -/

/-- The loop of `get`: drop entries that are too old or already closed by the
server until one is fit to use. -/
def takeFresh (maxAge now : Nat) (closed : Nat → Bool) :
    List PoolEntry → Option PoolEntry × List PoolEntry
  | [] => (none, [])
  | entry :: rest =>
      if maxAge < now - entry.created then takeFresh maxAge now closed rest
      else if closed entry.ws then takeFresh maxAge now closed rest
      else (some entry, rest)

/-- What `get` does under the bucket lock. -/
def getStep (config : Config) (pool : DirectPool) (key : PoolKey) (targetIp : String)
    (allowRefill : Bool) (now : Nat) (closed : Nat → Bool) : DirectPool :=
  let (taken, bucket) := takeFresh config.poolMaxAge now closed (pool.idle key)
  { pool with
    idle := setBucket pool.idle key bucket
    served := (taken.map fun entry => (key, entry)).toList ++ pool.served
    scheduling :=
      if allowRefill then pool.scheduling ++ [(key, targetIp)] else pool.scheduling }

/-- `schedule_refill`: reserve the bucket and spawn its refill task. -/
def scheduleRefill (config : Config) (pool : DirectPool) (key : PoolKey) (targetIp : String) :
    DirectPool :=
  if config.poolSize = 0 ∨ pool.refilling key = true then pool
  else
    { pool with
      refilling := fun other => if other = key then true else pool.refilling other
      refills := pool.refills ++ [⟨key, targetIp, .reserved⟩] }

/-! ## Refill tasks -/

def DirectPool.setRefill (pool : DirectPool) (index : Nat) (task : RefillTask)
    (phase : RefillPhase) : DirectPool :=
  { pool with refills := pool.refills.set index { task with phase } }

/-- Read the bucket's length under the lock. -/
def refillMeasure (config : Config) (pool : DirectPool) (index : Nat) (task : RefillTask) :
    DirectPool :=
  let current := (pool.idle task.key).length
  if config.poolSize ≤ current then pool.setRefill index task .releasing
  else pool.setRefill index task (.dialing (config.poolSize - current))

/-- `connect_batch` has returned `count` connections. -/
def refillDial (pool : DirectPool) (index : Nat) (task : RefillTask) (count : Nat) : DirectPool :=
  let connections := freshConnections pool count
  let phase := if connections = [] then .releasing else .dialed connections
  { pool.setRefill index task phase with nextWs := pool.nextWs + count }

/-- Store what still fits and drop the surplus. -/
def refillStore (config : Config) (pool : DirectPool) (index : Nat) (task : RefillTask)
    (connections : List Nat) (now : Nat) : DirectPool :=
  let bucket := pool.idle task.key
  -- Measured anew: `get` and the warm-up may have changed the bucket during the dials.
  let canAdd := config.poolSize - bucket.length
  { pool.setRefill index task .releasing with
    idle := setBucket pool.idle task.key (pushAll bucket now (connections.take canAdd)) }

/-- The guard is dropped at the end of the task. -/
def refillRelease (pool : DirectPool) (index : Nat) (task : RefillTask) : DirectPool :=
  { pool with
    refilling := fun other => if other = task.key then false else pool.refilling other
    refills := pool.refills.eraseIdx index }

/-! ## Warm-up -/

/-- The buckets that `warmup` fills: both classes of every configured data centre,
except classes pinned away from the direct tier. -/
def warmupJobs (config : Config) : List (PoolKey × String) :=
  let pinnedOffWs (isMedia : Bool) : Bool :=
    match config.forcedUpstreams isMedia with
    | some tiers => !tiers.contains .ws
    | none => false
  config.dcRedirects.flatMap fun (dc, ip) =>
    [false, true].filterMap fun isMedia =>
      if pinnedOffWs isMedia then none else some ((dc, isMedia), ip)

/-- A job dials the address of its own data centre. -/
theorem mem_dcRedirects_of_mem_warmupJobs {config : Config} {job : PoolKey × String}
    (hjob : job ∈ warmupJobs config) : (job.1.1, job.2) ∈ config.dcRedirects := by
  obtain ⟨redirect, hredirect, hjob⟩ := List.mem_flatMap.mp hjob
  obtain ⟨isMedia, _, hjob⟩ := List.mem_filterMap.mp hjob
  split at hjob
  next => cases hjob
  next =>
    cases hjob
    exact hredirect

/-- Jobs that have been started. The source starts no further one before it has
stored the batch in hand. -/
def inFlight (pool : DirectPool) : Nat :=
  pool.warmups.countP fun task => task.phase ≠ .waiting

def DirectPool.setWarmup (pool : DirectPool) (index : Nat) (task : WarmupTask)
    (phase : WarmupPhase) : DirectPool :=
  { pool with warmups := pool.warmups.set index { task with phase } }

/-- `connect_batch` of a warm-up job has returned `count` connections. -/
def warmupDial (pool : DirectPool) (index : Nat) (task : WarmupTask) (count : Nat) : DirectPool :=
  { pool.setWarmup index task (.dialed (freshConnections pool count)) with
    nextWs := pool.nextWs + count }

/-- Store the whole batch. -/
def warmupStore (pool : DirectPool) (index : Nat) (task : WarmupTask) (connections : List Nat)
    (now : Nat) : DirectPool :=
  { pool with
    idle := setBucket pool.idle task.key (pushAll (pool.idle task.key) now connections)
    warmups := pool.warmups.eraseIdx index }

/-! ## The system -/

inductive DirectLabel
  | get (key : PoolKey) (targetIp : String) (allowRefill : Bool) (now : Nat) (closed : Nat → Bool)
  | schedule (index : Nat)
  | refillMeasure (index : Nat)
  | refillDial (index count : Nat)
  | refillStore (index now : Nat)
  | refillRelease (index : Nat)
  | warmupStart (index : Nat)
  | warmupDial (index count : Nat)
  | warmupStore (index now : Nat)

def directStep (config : Config) (pool : DirectPool) : DirectLabel → Option DirectPool
  | .get key targetIp allowRefill now closed =>
      some (getStep config pool key targetIp allowRefill now closed)
  | .schedule index =>
      match pool.scheduling[index]? with
      | some (key, targetIp) =>
          some { scheduleRefill config pool key targetIp with
            scheduling := pool.scheduling.eraseIdx index }
      | none => none
  | .refillMeasure index =>
      match pool.refills[index]? with
      | some task =>
          match task.phase with
          | .reserved => some (refillMeasure config pool index task)
          | _ => none
      | none => none
  | .refillDial index count =>
      match pool.refills[index]? with
      | some task =>
          match task.phase with
          | .dialing needed =>
              if count ≤ needed then some (refillDial pool index task count) else none
          | _ => none
      | none => none
  | .refillStore index now =>
      match pool.refills[index]? with
      | some task =>
          match task.phase with
          | .dialed connections => some (refillStore config pool index task connections now)
          | _ => none
      | none => none
  | .refillRelease index =>
      match pool.refills[index]? with
      | some task =>
          match task.phase with
          | .releasing => some (refillRelease pool index task)
          | _ => none
      | none => none
  | .warmupStart index =>
      match pool.warmups[index]? with
      | some task =>
          match task.phase with
          | .waiting =>
              if inFlight pool < warmupBucketConcurrency then
                some (pool.setWarmup index task .dialing)
              else none
          | _ => none
      | none => none
  | .warmupDial index count =>
      match pool.warmups[index]? with
      | some task =>
          match task.phase with
          | .dialing =>
              if count ≤ config.poolSize then some (warmupDial pool index task count) else none
          | _ => none
      | none => none
  | .warmupStore index now =>
      match pool.warmups[index]? with
      | some task =>
          match task.phase with
          | .dialed connections => some (warmupStore pool index task connections now)
          | _ => none
      | none => none

/-- The pool right after start-up, when the warm-up has been spawned. -/
def DirectPool.start (config : Config) : DirectPool where
  idle := fun _ => []
  refilling := fun _ => false
  scheduling := []
  refills := []
  warmups := (warmupJobs config).map fun (key, ip) => ⟨key, ip, .waiting⟩
  served := []
  nextWs := 0

def directSystem (config : Config) : System DirectPool DirectLabel where
  start := DirectPool.start config
  step := directStep config

/-- Everything a step can do, with its guards. -/
inductive DirectMoves (config : Config) (pool : DirectPool) : DirectLabel → DirectPool → Prop
  | get (key : PoolKey) (targetIp : String) (allowRefill : Bool) (now : Nat)
      (closed : Nat → Bool) :
      DirectMoves config pool (.get key targetIp allowRefill now closed)
        (getStep config pool key targetIp allowRefill now closed)
  | schedule {index : Nat} {key : PoolKey} {targetIp : String}
      (hpending : pool.scheduling[index]? = some (key, targetIp)) :
      DirectMoves config pool (.schedule index)
        { scheduleRefill config pool key targetIp with
          scheduling := pool.scheduling.eraseIdx index }
  | refillMeasure {index : Nat} {task : RefillTask} (htask : pool.refills[index]? = some task)
      (hphase : task.phase = .reserved) :
      DirectMoves config pool (.refillMeasure index) (refillMeasure config pool index task)
  | refillDial {index count needed : Nat} {task : RefillTask}
      (htask : pool.refills[index]? = some task) (hphase : task.phase = .dialing needed)
      (hcount : count ≤ needed) :
      DirectMoves config pool (.refillDial index count) (refillDial pool index task count)
  | refillStore {index now : Nat} {task : RefillTask} {connections : List Nat}
      (htask : pool.refills[index]? = some task) (hphase : task.phase = .dialed connections) :
      DirectMoves config pool (.refillStore index now)
        (refillStore config pool index task connections now)
  | refillRelease {index : Nat} {task : RefillTask} (htask : pool.refills[index]? = some task)
      (hphase : task.phase = .releasing) :
      DirectMoves config pool (.refillRelease index) (refillRelease pool index task)
  | warmupStart {index : Nat} {task : WarmupTask} (htask : pool.warmups[index]? = some task)
      (hphase : task.phase = .waiting) (hfree : inFlight pool < warmupBucketConcurrency) :
      DirectMoves config pool (.warmupStart index) (pool.setWarmup index task .dialing)
  | warmupDial {index count : Nat} {task : WarmupTask}
      (htask : pool.warmups[index]? = some task) (hphase : task.phase = .dialing)
      (hcount : count ≤ config.poolSize) :
      DirectMoves config pool (.warmupDial index count) (warmupDial pool index task count)
  | warmupStore {index now : Nat} {task : WarmupTask} {connections : List Nat}
      (htask : pool.warmups[index]? = some task) (hphase : task.phase = .dialed connections) :
      DirectMoves config pool (.warmupStore index now)
        (warmupStore pool index task connections now)

theorem directStep_moves {config : Config} {pool next : DirectPool} {label : DirectLabel}
    (hstep : directStep config pool label = some next) : DirectMoves config pool label next := by
  cases label with
  | get key targetIp allowRefill now closed =>
      cases hstep
      exact .get key targetIp allowRefill now closed
  | schedule index =>
      simp only [directStep] at hstep
      split at hstep
      next key targetIp hpending =>
        cases hstep
        exact .schedule hpending
      next => cases hstep
  | refillMeasure index =>
      simp only [directStep] at hstep
      split at hstep
      next task htask =>
        split at hstep
        next hphase =>
          cases hstep
          exact .refillMeasure htask hphase
        next => cases hstep
      next => cases hstep
  | refillDial index count =>
      simp only [directStep] at hstep
      split at hstep
      next task htask =>
        split at hstep
        next needed hphase =>
          split at hstep
          next hcount =>
            cases hstep
            exact .refillDial htask hphase hcount
          next => cases hstep
        next => cases hstep
      next => cases hstep
  | refillStore index now =>
      simp only [directStep] at hstep
      split at hstep
      next task htask =>
        split at hstep
        next connections hphase =>
          cases hstep
          exact .refillStore htask hphase
        next => cases hstep
      next => cases hstep
  | refillRelease index =>
      simp only [directStep] at hstep
      split at hstep
      next task htask =>
        split at hstep
        next hphase =>
          cases hstep
          exact .refillRelease htask hphase
        next => cases hstep
      next => cases hstep
  | warmupStart index =>
      simp only [directStep] at hstep
      split at hstep
      next task htask =>
        split at hstep
        next hphase =>
          split at hstep
          next hfree =>
            cases hstep
            exact .warmupStart htask hphase hfree
          next => cases hstep
        next => cases hstep
      next => cases hstep
  | warmupDial index count =>
      simp only [directStep] at hstep
      split at hstep
      next task htask =>
        split at hstep
        next hphase =>
          split at hstep
          next hcount =>
            cases hstep
            exact .warmupDial htask hphase hcount
          next => cases hstep
        next => cases hstep
      next => cases hstep
  | warmupStore index now =>
      simp only [directStep] at hstep
      split at hstep
      next task htask =>
        split at hstep
        next connections hphase =>
          cases hstep
          exact .warmupStore htask hphase
        next => cases hstep
      next => cases hstep

section Origin

/-! Where what a move leaves behind was before it. -/

variable {config : Config} {pool next : DirectPool} {label : DirectLabel} {index : Nat}

/-- A move changes the bucket of its own request or task only. -/
theorem idle_of_moves (hmoves : DirectMoves config pool label next) (key : PoolKey) :
    next.idle key = pool.idle key ∨
      (∃ targetIp allowRefill now closed, label = .get key targetIp allowRefill now closed) ∨
        (∃ task ∈ pool.refills, task.key = key) ∨ ∃ task ∈ pool.warmups, task.key = key := by
  cases hmoves with
  | get changed targetIp allowRefill now closed =>
      by_cases hkey : key = changed
      · exact .inr (.inl ⟨targetIp, allowRefill, now, closed, hkey ▸ rfl⟩)
      · exact .inl (setBucket_of_ne _ _ hkey)
  | schedule hpending =>
      simp only [scheduleRefill]
      split <;> exact .inl rfl
  | refillMeasure htask hphase =>
      simp only [refillMeasure]
      split <;> exact .inl rfl
  | @refillStore _ _ task _ htask hphase =>
      by_cases hkey : key = task.key
      · exact .inr (.inr (.inl ⟨task, List.mem_of_getElem? htask, hkey.symm⟩))
      · exact .inl (setBucket_of_ne _ _ hkey)
  | @warmupStore _ _ task _ htask hphase =>
      by_cases hkey : key = task.key
      · exact .inr (.inr (.inr ⟨task, List.mem_of_getElem? htask, hkey.symm⟩))
      · exact .inl (setBucket_of_ne _ _ hkey)
  | refillDial | refillRelease | warmupStart | warmupDial => exact .inl rfl

theorem scheduling_of_moves (hmoves : DirectMoves config pool label next)
    {pair : PoolKey × String} (hpair : pair ∈ next.scheduling) :
    pair ∈ pool.scheduling ∨ ∃ now closed, label = .get pair.1 pair.2 true now closed := by
  cases hmoves with
  | get key targetIp allowRefill now closed =>
      simp only [getStep] at hpair
      split at hpair
      next hallow =>
        rcases List.mem_append.mp hpair with hpair | hpair
        · exact .inl hpair
        · rw [List.mem_singleton.mp hpair, hallow]
          exact .inr ⟨now, closed, rfl⟩
      next => exact .inl hpair
  | schedule hpending => exact .inl (List.mem_of_mem_eraseIdx hpair)
  | refillMeasure htask hphase =>
      simp only [refillMeasure] at hpair
      split at hpair <;> exact .inl hpair
  | refillDial | refillStore | refillRelease | warmupStart | warmupDial | warmupStore =>
      exact .inl hpair

/-- The bucket and the address of a task that may only have changed its phase. -/
theorem exists_refill_of_set {task other : RefillTask} {phase : RefillPhase}
    (htask : pool.refills[index]? = some task)
    (hother : other ∈ pool.refills.set index { task with phase }) :
    ∃ earlier ∈ pool.refills, (earlier.key, earlier.targetIp) = (other.key, other.targetIp) := by
  rcases List.mem_or_eq_of_mem_set hother with hother | rfl
  · exact ⟨other, hother, rfl⟩
  · exact ⟨task, List.mem_of_getElem? htask, rfl⟩

theorem exists_warmup_of_set {task other : WarmupTask} {phase : WarmupPhase}
    (htask : pool.warmups[index]? = some task)
    (hother : other ∈ pool.warmups.set index { task with phase }) :
    ∃ earlier ∈ pool.warmups, (earlier.key, earlier.ip) = (other.key, other.ip) := by
  rcases List.mem_or_eq_of_mem_set hother with hother | rfl
  · exact ⟨other, hother, rfl⟩
  · exact ⟨task, List.mem_of_getElem? htask, rfl⟩

theorem refill_of_moves (hmoves : DirectMoves config pool label next) {task : RefillTask}
    (htask : task ∈ next.refills) :
    (∃ earlier ∈ pool.refills, (earlier.key, earlier.targetIp) = (task.key, task.targetIp)) ∨
      ∃ index, label = .schedule index ∧
        pool.scheduling[index]? = some (task.key, task.targetIp) := by
  cases hmoves with
  | @schedule index key targetIp hpending =>
      simp only [scheduleRefill] at htask
      split at htask
      next => exact .inl ⟨task, htask, rfl⟩
      next =>
        rcases List.mem_append.mp htask with htask | htask
        · exact .inl ⟨task, htask, rfl⟩
        · rw [List.mem_singleton.mp htask]
          exact .inr ⟨index, rfl, hpending⟩
  | refillMeasure hmoved hphase =>
      simp only [refillMeasure] at htask
      split at htask <;> exact .inl (exists_refill_of_set hmoved htask)
  | refillDial hmoved hphase hcount => exact .inl (exists_refill_of_set hmoved htask)
  | refillStore hmoved hphase => exact .inl (exists_refill_of_set hmoved htask)
  | refillRelease hmoved hphase => exact .inl ⟨task, List.mem_of_mem_eraseIdx htask, rfl⟩
  | get | warmupStart | warmupDial | warmupStore => exact .inl ⟨task, htask, rfl⟩

theorem warmup_of_moves (hmoves : DirectMoves config pool label next) {task : WarmupTask}
    (htask : task ∈ next.warmups) :
    ∃ earlier ∈ pool.warmups, (earlier.key, earlier.ip) = (task.key, task.ip) := by
  cases hmoves with
  | schedule hpending =>
      simp only [scheduleRefill] at htask
      split at htask <;> exact ⟨task, htask, rfl⟩
  | refillMeasure hmoved hphase =>
      simp only [refillMeasure] at htask
      split at htask <;> exact ⟨task, htask, rfl⟩
  | warmupStart hmoved hphase hfree => exact exists_warmup_of_set hmoved htask
  | warmupDial hmoved hphase hcount => exact exists_warmup_of_set hmoved htask
  | warmupStore hmoved hphase => exact ⟨task, List.mem_of_mem_eraseIdx htask, rfl⟩
  | get | refillDial | refillStore | refillRelease => exact ⟨task, htask, rfl⟩

end Origin

end TgWsProxy.Pool
