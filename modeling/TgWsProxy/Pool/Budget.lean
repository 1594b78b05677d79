import Mathlib.Algebra.Order.BigOperators.Group.Finset
import Mathlib.Tactic.Ring
import TgWsProxy.Pool.Capacity
import TgWsProxy.Pool.SingleFlight

/-!
# Descriptors that the pool holds

At start-up the server reserves descriptors for the pool: for each of the two
buckets of every data centre with a direct address, `pool_size` idle connections
and as many being opened. The direct map keeps to that, the warm-up included. The
Cloudflare map has buckets of its own, and nothing is reserved for them.
-/

namespace TgWsProxy.Pool

open Foundation.Machine Foundation.Reservation Foundation.Transition

/-! ## Both maps -/

structure WsPool where
  direct : DirectPool
  cf : CfPool

inductive PoolLabel
  | direct (label : DirectLabel)
  | cloudflare (label : CfLabel)

/-- The routing layer asks the direct map only for data centres with an address. -/
def routed (config : Config) : DirectLabel → Bool
  | .get key targetIp _ _ _ => config.dcTargetIp key.1 = some targetIp
  | _ => true

def poolStep (config : Config) (width : PointerWidth) (pool : WsPool) :
    PoolLabel → Option WsPool
  | .direct label =>
      if routed config label then
        (directStep config pool.direct label).map fun direct => { pool with direct }
      else none
  | .cloudflare label => (cfStep config width pool.cf label).map fun cf => { pool with cf }

def poolSystem (config : Config) (width : PointerWidth) : System WsPool PoolLabel where
  start := ⟨DirectPool.start config, CfPool.start⟩
  step := poolStep config width

/-- What a step does to the two maps. -/
theorem poolStep_cases {config : Config} {width : PointerWidth} {pool next : WsPool}
    {label : PoolLabel} (hstep : poolStep config width pool label = some next) :
    (∃ direct, label = .direct direct ∧ routed config direct = true ∧
      DirectMoves config pool.direct direct next.direct ∧ next.cf = pool.cf) ∨
    (∃ cf, label = .cloudflare cf ∧ cfStep config width pool.cf cf = some next.cf ∧
      next.direct = pool.direct) := by
  cases label with
  | direct label =>
      simp only [poolStep] at hstep
      split at hstep
      next hrouted =>
        obtain ⟨direct, hdirect, rfl⟩ := Option.map_eq_some_iff.mp hstep
        exact .inl ⟨label, rfl, hrouted, directStep_moves hdirect, rfl⟩
      next => cases hstep
  | cloudflare label =>
      obtain ⟨cf, hcf, rfl⟩ := Option.map_eq_some_iff.mp hstep
      exact .inr ⟨label, rfl, hcf, rfl⟩

/-! ## Sockets -/

/-- Sockets a refill task holds at most: one for every connection that it still
dials or has not stored. -/
def RefillPhase.sockets : RefillPhase → Nat
  | .dialing needed => needed
  | .dialed connections => connections.length
  | .reserved | .releasing => 0

def WarmupPhase.sockets (size : Nat) : WarmupPhase → Nat
  | .waiting => 0
  | .dialing => size
  | .dialed connections => connections.length

def CfRefillPhase.sockets : CfRefillPhase → Nat
  | .dialing | .dialed _ => 1
  | .reserved | .releasing => 0

/-- Sockets of the direct map, with the idle ones of the given buckets. -/
def DirectPool.sockets (config : Config) (pool : DirectPool) (keys : Finset PoolKey) : Nat :=
  ∑ key ∈ keys, (pool.idle key).length +
    (pool.refills.map fun task => task.phase.sockets).sum +
    (pool.warmups.map fun task => task.phase.sockets config.poolSize).sum

def CfPool.sockets (pool : CfPool) (keys : Finset CfKey) : Nat :=
  ∑ key ∈ keys, (pool.idle key).length + (pool.refills.map fun task => task.phase.sockets).sum

/-- Two buckets for every data centre with an address. -/
def dcBuckets (config : Config) : Nat := config.dcRedirects.length * 2

/-- What `run_with_listen` has reserved for the pool. -/
def poolFds (config : Config) : Nat := config.poolSize * dcBuckets config * 2

/-- Whatever buckets are counted, the pool holds no more than was reserved. -/
def WithinDescriptors (config : Config) (pool : WsPool) : Prop :=
  ∀ keys cfKeys, pool.direct.sockets config keys + pool.cf.sockets cfKeys ≤ poolFds config

/-! ## Buckets of the direct map -/

/-- The buckets that are counted in the reserve. -/
def configuredKeys (config : Config) : Finset PoolKey :=
  (config.dcRedirects.map Prod.fst).toFinset ×ˢ Finset.univ

theorem card_configuredKeys (config : Config) :
    (configuredKeys config).card = dcBuckets config := by
  rw [configuredKeys, Finset.card_product, List.toFinset_card_of_nodup config.nodup_dcRedirects,
    List.length_map, dcBuckets]
  rfl

theorem mem_configuredKeys {config : Config} {key : PoolKey} :
    key ∈ configuredKeys config ↔ key.1 ∈ config.dcRedirects.map Prod.fst := by
  simp [configuredKeys]

theorem mem_warmupJobs {config : Config} {job : PoolKey × String}
    (hjob : job ∈ warmupJobs config) : job.1.1 ∈ config.dcRedirects.map Prod.fst :=
  List.mem_map.mpr ⟨_, mem_dcRedirects_of_mem_warmupJobs hjob, rfl⟩

/-- The warm-up fills a bucket once. -/
theorem nodup_warmupJobs (config : Config) : ((warmupJobs config).map Prod.fst).Nodup := by
  have hjobs : ∀ (pinned : Bool → Bool) (redirects : List (Nat × String)),
      (redirects.map Prod.fst).Nodup →
      ((redirects.flatMap fun redirect => [false, true].filterMap fun isMedia =>
        if pinned isMedia then none else some ((redirect.1, isMedia), redirect.2)).map
          Prod.fst).Nodup := by
    intro pinned redirects hnodup
    induction redirects with
    | nil => exact List.nodup_nil
    | cons redirect rest ih =>
        obtain ⟨hhead, htail⟩ := List.nodup_cons.mp hnodup
        rw [List.flatMap_cons, List.map_append, List.nodup_append]
        refine ⟨?_, ih htail, ?_⟩
        · cases hfalse : pinned false <;> cases htrue : pinned true <;>
            simp [hfalse, htrue]
        · intro key hkey other hother heq
          subst heq
          simp only [List.map_filterMap, List.map_flatMap, List.mem_flatMap, List.mem_filterMap,
            Option.map_eq_some_iff] at hkey hother
          obtain ⟨_, _, _, hjob, rfl⟩ := hkey
          obtain ⟨redirect', hredirect', _, _, _, hjob', heq⟩ := hother
          split at hjob
          next => cases hjob
          next =>
            split at hjob'
            next => cases hjob'
            next =>
              cases hjob
              cases hjob'
              apply hhead
              have hdc : redirect'.1 = redirect.1 := congrArg (fun key : PoolKey => key.1) heq
              rw [← hdc]
              exact List.mem_map_of_mem hredirect'
  exact hjobs _ config.dcRedirects config.nodup_dcRedirects

section Direct

variable {config : Config} {pool next : DirectPool} {label : DirectLabel}

/-- Only buckets that are counted are used. -/
structure Configured (config : Config) (pool : DirectPool) : Prop where
  idle : ∀ key, key ∉ configuredKeys config → pool.idle key = []
  scheduling : ∀ request ∈ pool.scheduling, request.1 ∈ configuredKeys config
  refills : ∀ task ∈ pool.refills, task.key ∈ configuredKeys config
  warmups : ∀ task ∈ pool.warmups, task.key ∈ configuredKeys config

theorem Configured.step (hpool : Configured config pool) (hrouted : routed config label = true)
    (hmoves : DirectMoves config pool label next) : Configured config next := by
  have hget : ∀ {key targetIp allowRefill now closed},
      label = .get key targetIp allowRefill now closed → key ∈ configuredKeys config := by
    rintro key targetIp allowRefill now closed rfl
    simp only [routed, decide_eq_true_eq] at hrouted
    exact mem_configuredKeys.mpr (Config.mem_dcRedirects_of_dcTargetIp hrouted)
  refine ⟨?_, ?_, ?_, ?_⟩
  · intro key hkey
    rcases idle_of_moves hmoves key with
      hsame | ⟨_, _, _, _, hlabel⟩ | ⟨task, htask, rfl⟩ | ⟨task, htask, rfl⟩
    · exact hsame.trans (hpool.idle key hkey)
    · exact (hkey (hget hlabel)).elim
    · exact (hkey (hpool.refills task htask)).elim
    · exact (hkey (hpool.warmups task htask)).elim
  · intro request hrequest
    rcases scheduling_of_moves hmoves hrequest with hrequest | ⟨_, _, hlabel⟩
    · exact hpool.scheduling request hrequest
    · exact hget hlabel
  · intro task htask
    rcases refill_of_moves hmoves htask with ⟨earlier, hearlier, hsame⟩ | ⟨_, -, hpending⟩
    · rw [← (Prod.mk.inj hsame).1]
      exact hpool.refills earlier hearlier
    · exact hpool.scheduling _ (List.mem_of_getElem? hpending)
  · intro task htask
    obtain ⟨earlier, hearlier, hsame⟩ := warmup_of_moves hmoves htask
    rw [← (Prod.mk.inj hsame).1]
    exact hpool.warmups earlier hearlier

/-! ## How full a bucket gets -/

/-- Until the warm-up has stored its batch, a bucket and its refill stay within
`pool_size`; the batch can double that. -/
def limit (config : Config) (pool : DirectPool) (key : PoolKey) : Nat :=
  if key ∈ pool.warmups.map WarmupTask.key then config.poolSize else 2 * config.poolSize

theorem le_limit (config : Config) (pool : DirectPool) (key : PoolKey) :
    config.poolSize ≤ limit config pool key := by
  unfold limit
  split <;> omega

theorem limit_le (config : Config) (pool : DirectPool) (key : PoolKey) :
    limit config pool key ≤ 2 * config.poolSize := by
  unfold limit
  split <;> omega

structure Bounded (config : Config) (pool : DirectPool) : Prop where
  flight : SingleFlight RefillTask.key pool.refilling pool.refills
  jobs : (pool.warmups.map WarmupTask.key).Nodup
  batch : ∀ task ∈ pool.warmups, task.phase.sockets config.poolSize ≤ config.poolSize
  bucket : ∀ key, (pool.idle key).length ≤ limit config pool key
  refill : ∀ task ∈ pool.refills,
    (pool.idle task.key).length + task.phase.sockets ≤ limit config pool task.key

/-- A refill task moves on; only its own bucket may gain. -/
theorem Bounded.advance (hpool : Bounded config pool) {index : Nat} {task : RefillTask}
    {phase : RefillPhase} (htask : pool.refills[index]? = some task)
    (hrefills : next.refills = pool.refills.set index { task with phase })
    (hrefilling : next.refilling = pool.refilling) (hwarmups : next.warmups = pool.warmups)
    (hidle : ∀ key, key ≠ task.key → (next.idle key).length ≤ (pool.idle key).length)
    (hphase : (next.idle task.key).length + phase.sockets ≤ limit config pool task.key) :
    Bounded config next := by
  have hflight : SingleFlight RefillTask.key next.refilling next.refills := by
    rw [hrefills, hrefilling]
    exact hpool.flight.advance htask rfl
  have hlimit : limit config next = limit config pool := by
    funext key
    rw [limit, hwarmups, limit]
  refine ⟨hflight, hwarmups ▸ hpool.jobs, hwarmups ▸ hpool.batch, ?_, ?_⟩
  · intro key
    rw [hlimit]
    by_cases hkey : key = task.key
    · rw [hkey]
      exact Nat.le_of_add_right_le hphase
    · exact Nat.le_trans (hidle key hkey) (hpool.bucket key)
  · intro other hother
    rw [hlimit]
    by_cases hkey : other.key = task.key
    · have hlt : index < pool.refills.length := (List.getElem?_eq_some_iff.mp htask).1
      have hself : ({ task with phase } : RefillTask) ∈ next.refills :=
        hrefills ▸ List.mem_set hlt _
      -- A key has one task, so this is the one that moved.
      rw [hflight.eq_of_mem hother hself hkey]
      exact hphase
    · rw [hrefills] at hother
      rcases List.mem_or_eq_of_mem_set hother with hother | rfl
      · exact Nat.le_trans (Nat.add_le_add_right (hidle other.key hkey) _)
          (hpool.refill other hother)
      · exact (hkey rfl).elim

/-- A warm-up job moves on. -/
theorem Bounded.advanceWarmup (hpool : Bounded config pool) {index : Nat} {task : WarmupTask}
    {phase : WarmupPhase} (htask : pool.warmups[index]? = some task)
    (hphase : phase.sockets config.poolSize ≤ config.poolSize) (nextWs : Nat) :
    Bounded config { pool.setWarmup index task phase with nextWs } := by
  have hmap : (pool.warmups.set index { task with phase }).map WarmupTask.key =
      pool.warmups.map WarmupTask.key := map_set_of_key htask rfl
  have hlimit : ∀ key,
      limit config { pool.setWarmup index task phase with nextWs } key = limit config pool key := by
    intro key
    simp only [limit, DirectPool.setWarmup, hmap]
  refine ⟨hpool.flight, ?_, ?_, ?_, ?_⟩
  · change ((pool.warmups.set index { task with phase }).map WarmupTask.key).Nodup
    rw [hmap]
    exact hpool.jobs
  · intro other hother
    rcases List.mem_or_eq_of_mem_set hother with hother | rfl
    · exact hpool.batch other hother
    · exact hphase
  · intro key
    rw [hlimit]
    exact hpool.bucket key
  · intro other hother
    rw [hlimit]
    exact hpool.refill other hother

/-- The batch of a warm-up job is stored on top of what the bucket holds. -/
theorem Bounded.storeWarmup (hpool : Bounded config pool) {index : Nat} {task : WarmupTask}
    {connections : List Nat} (htask : pool.warmups[index]? = some task)
    (hphase : task.phase = .dialed connections) (now : Nat) :
    Bounded config (warmupStore pool index task connections now) := by
  have hmem := List.mem_of_getElem? htask
  have herased := mem_map_eraseIdx hpool.jobs htask
  have hbatch : connections.length ≤ config.poolSize := by
    have hsockets := hpool.batch task hmem
    rwa [hphase] at hsockets
  have hbefore : limit config pool task.key = config.poolSize :=
    if_pos (List.mem_map_of_mem hmem)
  have hself : limit config (warmupStore pool index task connections now) task.key =
      2 * config.poolSize := by
    refine if_neg ?_
    intro hmem
    exact ((herased task.key).mp hmem).1 rfl
  have hother : ∀ key, key ≠ task.key →
      limit config (warmupStore pool index task connections now) key = limit config pool key := by
    intro key hkey
    have hiff := herased key
    simp only [limit, warmupStore, hiff, ne_eq, hkey, not_false_eq_true, true_and]
  have hidle : ((warmupStore pool index task connections now).idle task.key).length =
      (pool.idle task.key).length + connections.length := by
    simp [warmupStore]
  have hsame : ∀ key, key ≠ task.key →
      (warmupStore pool index task connections now).idle key = pool.idle key :=
    fun key hkey => setBucket_of_ne _ _ hkey
  refine ⟨hpool.flight, ?_, ?_, ?_, ?_⟩
  · exact nodup_map_eraseIdx hpool.jobs index
  · exact fun other hmem => hpool.batch other (List.mem_of_mem_eraseIdx hmem)
  · intro key
    by_cases hkey : key = task.key
    · have hbucket := hpool.bucket task.key
      rw [hkey, hself, hidle]
      omega
    · rw [hother key hkey, hsame key hkey]
      exact hpool.bucket key
  · intro refill hrefill
    have hbound := hpool.refill refill hrefill
    by_cases hkey : refill.key = task.key
    · rw [hkey] at hbound ⊢
      rw [hself, hidle]
      omega
    · rw [hother _ hkey, hsame _ hkey]
      exact hbound

theorem Bounded.step (hpool : Bounded config pool) (hmoves : DirectMoves config pool label next) :
    Bounded config next := by
  cases hmoves with
  | get key targetIp allowRefill now closed =>
      have hidle : ∀ other, ((getStep config pool key targetIp allowRefill now closed).idle
          other).length ≤ (pool.idle other).length := by
        intro other
        by_cases hother : other = key
        · subst hother
          simpa [getStep] using takeFresh_length _ _ _ _
        · simp [getStep, setBucket_of_ne _ _ hother]
      exact ⟨hpool.flight, hpool.jobs, hpool.batch,
        fun other => Nat.le_trans (hidle other) (hpool.bucket other),
        fun task htask => Nat.le_trans (Nat.add_le_add_right (hidle task.key) _)
          (hpool.refill task htask)⟩
  | @schedule index key targetIp hpending =>
      simp only [scheduleRefill]
      split
      next => exact ⟨hpool.flight, hpool.jobs, hpool.batch, hpool.bucket, hpool.refill⟩
      next hspawn =>
        have hflight := hpool.flight.spawn ⟨key, targetIp, .reserved⟩ (not_or.mp hspawn).2
        refine ⟨hflight, hpool.jobs, hpool.batch, hpool.bucket, ?_⟩
        intro task htask
        rcases List.mem_append.mp htask with htask | htask
        · exact hpool.refill task htask
        · rw [List.mem_singleton.mp htask]
          exact hpool.bucket key
  | @refillMeasure index task htask hphase =>
      simp only [Pool.refillMeasure]
      split
      next hfull =>
        refine hpool.advance htask rfl rfl rfl (fun _ _ => Nat.le_refl _) ?_
        exact hpool.bucket task.key
      next hroom =>
        refine hpool.advance htask rfl rfl rfl (fun _ _ => Nat.le_refl _) ?_
        have hlimit := le_limit config pool task.key
        change (pool.idle task.key).length + (config.poolSize - (pool.idle task.key).length) ≤ _
        omega
  | @refillDial index count needed task htask hphase hcount =>
      refine hpool.advance htask rfl rfl rfl (fun _ _ => Nat.le_refl _) ?_
      have hbound := hpool.refill task (List.mem_of_getElem? htask)
      rw [hphase] at hbound
      have hsockets : (if freshConnections pool count = [] then RefillPhase.releasing
          else .dialed (freshConnections pool count)).sockets ≤ count := by
        split
        next => exact Nat.zero_le _
        next => simp [RefillPhase.sockets, freshConnections]
      exact Nat.le_trans (Nat.add_le_add_left (Nat.le_trans hsockets hcount) _) hbound
  | @refillStore index now task connections htask hphase =>
      refine hpool.advance htask rfl rfl rfl ?_ ?_
      · intro key hkey
        simp [Pool.refillStore, setBucket_of_ne _ _ hkey]
      · have hbound := hpool.refill task (List.mem_of_getElem? htask)
        rw [hphase] at hbound
        have hlength : ((Pool.refillStore config pool index task connections now).idle
            task.key).length ≤ (pool.idle task.key).length + connections.length := by
          simp [Pool.refillStore]
        exact Nat.le_trans hlength hbound
  | refillRelease htask hphase =>
      exact ⟨hpool.flight.finish htask, hpool.jobs, hpool.batch, hpool.bucket,
        fun task hmem => hpool.refill task (List.mem_of_mem_eraseIdx hmem)⟩
  | warmupStart htask hphase hfree =>
      exact hpool.advanceWarmup htask (Nat.le_refl _) pool.nextWs
  | @warmupDial index count task htask hphase hcount =>
      refine hpool.advanceWarmup htask ?_ (pool.nextWs + count)
      simpa [WarmupPhase.sockets, freshConnections] using hcount
  | warmupStore htask hphase => exact hpool.storeWarmup htask hphase _

theorem start_bounded (config : Config) : Bounded config (DirectPool.start config) := by
  have hkeys : (DirectPool.start config).warmups.map WarmupTask.key =
      (warmupJobs config).map Prod.fst := by
    simp [DirectPool.start, Function.comp_def]
  refine ⟨.nil fun _ => rfl, hkeys ▸ nodup_warmupJobs config, ?_, fun _ => Nat.zero_le _, ?_⟩
  · intro task htask
    obtain ⟨job, _, rfl⟩ := List.mem_map.mp htask
    exact Nat.zero_le _
  · intro task htask
    cases htask

theorem start_configured (config : Config) : Configured config (DirectPool.start config) := by
  refine ⟨fun _ _ => rfl, ?_, ?_, ?_⟩
  · intro request hrequest
    cases hrequest
  · intro task htask
    cases htask
  · intro task htask
    obtain ⟨job, hjob, rfl⟩ := List.mem_map.mp htask
    exact mem_configuredKeys.mpr (mem_warmupJobs hjob)

/-- One bucket, its refill and its warm-up job together. -/
theorem Bounded.key_le (hpool : Bounded config pool) (key : PoolKey) :
    (pool.idle key).length +
        ((pool.refills.filter fun task => task.key = key).map fun task => task.phase.sockets).sum +
        ((pool.warmups.filter fun task => task.key = key).map fun task =>
          task.phase.sockets config.poolSize).sum ≤ 2 * config.poolSize := by
  have hrefills : ((pool.refills.filter fun task => task.key = key).map fun task =>
      task.phase.sockets).sum ≤ limit config pool key - (pool.idle key).length := by
    apply sum_filter_le hpool.flight.nodup
    rintro task htask rfl
    have hrefill := hpool.refill task htask
    omega
  have hbucket := hpool.bucket key
  have hlimit := limit_le config pool key
  by_cases hjob : key ∈ pool.warmups.map WarmupTask.key
  · have hwarmups : ((pool.warmups.filter fun task => task.key = key).map fun task =>
        task.phase.sockets config.poolSize).sum ≤ config.poolSize :=
      sum_filter_le hpool.jobs fun task htask _ => hpool.batch task htask
    have hsize : limit config pool key = config.poolSize := if_pos hjob
    omega
  · have hnone : pool.warmups.filter (fun task => task.key = key) = [] := by
      rw [List.filter_eq_nil_iff]
      intro task htask heq
      exact hjob (of_decide_eq_true heq ▸ List.mem_map_of_mem htask)
    rw [hnone]
    simp only [List.map_nil, List.sum_nil]
    omega

/-- The direct map stays within what was reserved for both maps. -/
theorem Bounded.sockets_le (hpool : Bounded config pool) (hconfigured : Configured config pool)
    (keys : Finset PoolKey) : pool.sockets config keys ≤ poolFds config := by
  have hidle : ∑ key ∈ keys, (pool.idle key).length ≤
      ∑ key ∈ configuredKeys config, (pool.idle key).length := by
    apply Finset.sum_le_sum_of_ne_zero
    intro key _ hnonempty
    by_contra hkey
    exact hnonempty (by rw [hconfigured.idle key hkey]; rfl)
  calc pool.sockets config keys
    _ ≤ ∑ key ∈ configuredKeys config, ((pool.idle key).length +
          ((pool.refills.filter fun task => task.key = key).map fun task =>
            task.phase.sockets).sum +
          ((pool.warmups.filter fun task => task.key = key).map fun task =>
            task.phase.sockets config.poolSize).sum) := by
        rw [DirectPool.sockets, sum_eq_sum_keys _ hconfigured.refills,
          sum_eq_sum_keys _ hconfigured.warmups, Finset.sum_add_distrib, Finset.sum_add_distrib]
        omega
    _ ≤ ∑ _key ∈ configuredKeys config, 2 * config.poolSize :=
        Finset.sum_le_sum fun key _ => hpool.key_le key
    _ = poolFds config := by
        rw [Finset.sum_const_nat fun _ _ => rfl, card_configuredKeys, poolFds]
        ring

end Direct

/-! ## The Cloudflare map -/

/-- Without a dial in the background the Cloudflare map holds nothing. -/
structure Unused (ledger : CfLedger) : Prop where
  idle : ∀ key, ledger.idle key = []
  refills : ∀ task ∈ ledger.refills, task.phase.sockets = 0

namespace Unused

variable {config : Config} {width : PointerWidth} {ledger next : CfLedger}

theorem task (hledger : Unused ledger) {index : Nat} {task : CfRefillTask}
    (htask : ledger.refills[index]? = some task) : task.phase.sockets = 0 :=
  hledger.refills task (List.mem_of_getElem? htask)

theorem release (hledger : Unused ledger) (index : Nat) (task : CfRefillTask) :
    ∀ other ∈ ledger.refills.set index { task with phase := .releasing },
      other.phase.sockets = 0 := by
  intro other hother
  rcases List.mem_or_eq_of_mem_set hother with hother | rfl
  · exact hledger.refills other hother
  · rfl

theorem setCfBucket (hledger : Unused ledger) (key : CfKey) :
    ∀ other, setCfBucket ledger.idle key [] other = [] := by
  intro other
  unfold Pool.setCfBucket
  split
  next => rfl
  next => exact hledger.idle other

theorem step (hledger : Unused ledger) (hmoves : CfLedgerMoves config ledger next)
    (hdials : next.dials = ledger.dials) : Unused next := by
  cases hmoves with
  | quiet => exact hledger
  | inline key name => exact ⟨hledger.idle, hledger.refills⟩
  | hit key hbucket hgone hentry =>
      rw [hledger.idle] at hbucket
      simp at hbucket
  | miss key => exact ⟨hledger.setCfBucket key, hledger.refills⟩
  | spawn target hsize hfree =>
      refine ⟨hledger.idle, ?_⟩
      intro task htask
      rcases List.mem_append.mp htask with htask | htask
      · exact hledger.refills task htask
      · rw [List.mem_singleton.mp htask]
        rfl
  | measuredFull htask hphase hfull => exact ⟨hledger.idle, hledger.release _ _⟩
  | measuredRoom htask hphase hroom => simp at hdials
  | connected htask hphase =>
      have hnone := hledger.task htask
      rw [hphase] at hnone
      cases hnone
  | failed htask hphase => exact ⟨hledger.idle, hledger.release _ _⟩
  | stored htask hphase hroom =>
      have hnone := hledger.task htask
      rw [hphase] at hnone
      cases hnone
  | surplus htask hphase hfull => exact ⟨hledger.idle, hledger.release _ _⟩
  | released htask hphase =>
      exact ⟨hledger.idle, fun task hmem => hledger.refills task (List.mem_of_mem_eraseIdx hmem)⟩

theorem sockets_eq_zero {pool : CfPool} (hpool : Unused pool.ledger) (keys : Finset CfKey) :
    pool.sockets keys = 0 := by
  have hidle : ∀ key ∈ keys, (pool.idle key).length = 0 := by
    intro key _
    have hempty : pool.idle key = [] := hpool.idle key
    rw [hempty, List.length_nil]
  have hrefills : (pool.refills.map fun task => task.phase.sockets).sum = 0 := by
    apply List.sum_eq_zero
    intro amount hamount
    obtain ⟨task, htask, rfl⟩ := List.mem_map.mp hamount
    exact hpool.refills task htask
  rw [CfPool.sockets, Finset.sum_eq_zero hidle, hrefills]

end Unused

/-- Without a tier that has domains no client enters one. -/
theorem cfStep_unconfigured {config : Config} {width : PointerWidth} {pool next : CfPool}
    {label : CfLabel} (hdomains : config.cfDomains = []) (hworkers : config.cfWorkerDomains = [])
    (hclients : pool.clients = []) (hrefills : pool.refills = [])
    (hstep : cfStep config width pool label = some next) : next = pool := by
  cases label with
  | arrive tier dc isMedia dst =>
      cases hstep
      have hnone : tierDomains config tier = [] := by cases tier <;> assumption
      exact if_pos hnone
  | rotate _ | get _ _ _ | dial _ _ | skipCooling _ | describe _ | prefetch _ =>
      simp [cfStep, hclients] at hstep
  | refillMeasure _ | refillDial _ _ | refillStore _ _ | refillRelease _ =>
      simp [cfStep, hrefills] at hstep

/-! ## Runs -/

/-- The descriptors reserved for the pool suffice in every run in which no spare
connection is dialled through Cloudflare, in particular with `pool_size` zero and
without a Cloudflare domain and a Worker. -/
theorem pool_descriptor_budget (config : Config) (width : PointerWidth)
    (labels : List PoolLabel) :
    ((∀ pool, (poolSystem config width).Visits labels pool → pool.cf.dials = []) →
      ∀ pool, (poolSystem config width).Visits labels pool → WithinDescriptors config pool) ∧
    (config.poolSize = 0 ∨ config.cfDomains = [] ∧ config.cfWorkerDomains = [] →
      ∀ pool, (poolSystem config width).Visits labels pool → WithinDescriptors config pool) := by
  have hquiet : (∀ pool, (poolSystem config width).Visits labels pool → pool.cf.dials = []) →
      ∀ pool, (poolSystem config width).Visits labels pool → WithinDescriptors config pool := by
    intro hdials pool hvisits keys cfKeys
    have hdirect : Bounded config pool.direct ∧ Configured config pool.direct := by
      refine @System.Visits.invariant _ _ (poolSystem config width) labels
        (fun pool => Bounded config pool.direct ∧ Configured config pool.direct)
        ⟨start_bounded config, start_configured config⟩ ?_ pool hvisits
      rintro state label next hstep ⟨hbounded, hconfigured⟩
      rcases poolStep_cases hstep with ⟨direct, _, hrouted, hmoves, _⟩ | ⟨cf, _, _, hsame⟩
      · exact ⟨hbounded.step hmoves, hconfigured.step hrouted hmoves⟩
      · rw [hsame]
        exact ⟨hbounded, hconfigured⟩
    have hcf : Unused pool.cf.ledger := by
      refine @System.Visits.induct _ _ (poolSystem config width) labels
        (fun pool => Unused pool.cf.ledger)
        ⟨fun _ => rfl, fun _ hmem => (List.not_mem_nil hmem).elim⟩ ?_ pool hvisits
      intro state label next htakes hstep hunused
      rcases poolStep_cases hstep with ⟨direct, _, _, _, hsame⟩ | ⟨cf, _, hcf, _⟩
      · rw [hsame]
        exact hunused
      · refine hunused.step (cfStep_ledger hcf) ?_
        exact (hdials next (htakes.visits _ hstep)).trans (hdials state htakes.state).symm
    rw [hcf.sockets_eq_zero, Nat.add_zero]
    exact hdirect.1.sockets_le hdirect.2 keys
  refine ⟨hquiet, fun hcondition => hquiet ?_⟩
  intro pool hvisits
  rcases hcondition with hsize | ⟨hdomains, hworkers⟩
  · have hdormant : pool.cf.ledger.Dormant := by
      refine @System.Visits.invariant _ _ (poolSystem config width) labels
        (fun pool => pool.cf.ledger.Dormant) ⟨rfl, rfl⟩ ?_ pool hvisits
      intro state label next hstep hdormant
      rcases poolStep_cases hstep with ⟨direct, _, _, _, hsame⟩ | ⟨cf, _, hcf, _⟩
      · rw [hsame]
        exact hdormant
      · exact hdormant.step hsize (cfStep_ledger hcf)
    exact hdormant.2
  · have hstart : pool.cf = CfPool.start := by
      refine @System.Visits.invariant _ _ (poolSystem config width) labels
        (fun pool => pool.cf = CfPool.start) rfl ?_ pool hvisits
      intro state label next hstep hstate
      rcases poolStep_cases hstep with ⟨direct, _, _, _, hsame⟩ | ⟨cf, _, hcf, _⟩
      · rw [hsame, hstate]
      · rw [cfStep_unconfigured hdomains hworkers (by rw [hstate]; rfl) (by rw [hstate]; rfl) hcf,
          hstate]
    rw [hstart]
    rfl

/-- One data centre with a direct address, one Worker, and one pooled connection
per bucket: four descriptors are reserved. -/
def fourFdConfig : Config :=
  { poolSize := 1, dcIp := [(2, "149.154.167.220")], cfWorkerDomains := ["w.example"] }

/-- A client of a data centre connects through the Worker and leaves a spare behind. -/
def workerClient (dc : Nat) : List PoolLabel :=
  [.arrive .worker dc false "", .get 0 0 (fun _ => false), .rotate 0, .dial 0 (.connected ()),
    .describe 0, .prefetch 0, .refillMeasure 0, .refillDial 0 true, .refillStore 0 0,
    .refillRelease 0].map .cloudflare

def fiveSparesRun : List PoolLabel := [1, 2, 3, 4, 5].flatMap workerClient

theorem pool_descriptor_budget_exceeded :
    ∃ pool, (poolSystem fourFdConfig .bits64).Visits fiveSparesRun pool ∧
      poolFds fourFdConfig = 4 ∧
      pool.cf.sockets {(.worker, 1, false), (.worker, 2, false), (.worker, 3, false),
        (.worker, 4, false), (.worker, 5, false)} = 5 ∧
      ¬ WithinDescriptors fourFdConfig pool := by
  refine ⟨_, ⟨fiveSparesRun, [], rfl, rfl⟩, rfl, rfl, fun hwithin => ?_⟩
  have hsockets := hwithin ∅ {(.worker, 1, false), (.worker, 2, false), (.worker, 3, false),
    (.worker, 4, false), (.worker, 5, false)}
  exact absurd hsockets (by decide)

end TgWsProxy.Pool
