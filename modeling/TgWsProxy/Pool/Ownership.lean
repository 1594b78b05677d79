import Mathlib.Algebra.Order.Group.Multiset
import TgWsProxy.Foundation.Custody
import TgWsProxy.Pool.Capacity
import TgWsProxy.Pool.CfLedger

/-!
# Owners of pooled connections

Both maps of the pool move an inventory of connections: a dial opens connections
for a key, a refill or the warm-up stores them in the bucket of that key or drops
them, and `get` hands one out and drops the unusable ones above it. So every
connection has one owner at any time, and never comes back.
-/

namespace TgWsProxy.Pool

open Foundation.Custody Foundation.Machine Foundation.Reservation Foundation.Transition
  TgWsProxy.Cloudflare

/-! ## The direct map -/

theorem takeFresh_takesFirst {maxAge now : Nat} {closed : Nat → Bool}
    {bucket rest : List PoolEntry} {taken : Option PoolEntry}
    (htake : takeFresh maxAge now closed bucket = (taken, rest)) :
    TakesFirst (fun entry : PoolEntry => Usable maxAge now closed entry.ws entry.created)
      bucket rest taken := by
  induction bucket with
  | nil =>
      cases htake
      exact .nil
  | cons head tail ih =>
      unfold takeFresh at htake
      split at htake
      next hold => exact .skip (fun husable => Nat.not_lt.mpr husable.1 hold) (ih htake)
      next hyoung =>
        split at htake
        next hclosed => exact .skip (fun husable => by simp [husable.2] at hclosed) (ih htake)
        next hopen =>
          cases htake
          exact .here ⟨Nat.le_of_not_lt hyoung, by simpa using hopen⟩ _

section Direct

variable {config : Config} {pool next : DirectPool} {label : DirectLabel}

/-- Connections that a refill task has opened and not stored. -/
def RefillPhase.batch : RefillPhase → List Nat
  | .dialed connections => connections
  | .reserved | .dialing _ | .releasing => []

def WarmupPhase.batch : WarmupPhase → List Nat
  | .dialed connections => connections
  | .waiting | .dialing => []

def refillsOpened (refills : List RefillTask) : Multiset (PoolKey × Nat) :=
  (refills.map fun task => tag task.key task.phase.batch).sum

def warmupsOpened (warmups : List WarmupTask) : Multiset (PoolKey × Nat) :=
  (warmups.map fun task => tag task.key task.phase.batch).sum

def DirectPool.inventory (pool : DirectPool) : Inventory PoolKey where
  opened := refillsOpened pool.refills + warmupsOpened pool.warmups
  pooled := fun key => (pool.idle key).map PoolEntry.ws
  lent := (pool.served.map fun served => (served.1, served.2.ws) : List _)
  next := pool.nextWs

theorem refillsOpened_set {index : Nat} {task : RefillTask}
    (htask : pool.refills[index]? = some task) (phase : RefillPhase) :
    refillsOpened (pool.refills.set index { task with phase }) + tag task.key task.phase.batch =
      refillsOpened pool.refills + tag task.key phase.batch :=
  sum_set _ htask _

theorem warmupsOpened_set {index : Nat} {task : WarmupTask}
    (htask : pool.warmups[index]? = some task) (phase : WarmupPhase) :
    warmupsOpened (pool.warmups.set index { task with phase }) + tag task.key task.phase.batch =
      warmupsOpened pool.warmups + tag task.key phase.batch :=
  sum_set _ htask _

theorem refillsOpened_eraseIdx {index : Nat} {task : RefillTask}
    (htask : pool.refills[index]? = some task) :
    refillsOpened (pool.refills.eraseIdx index) + tag task.key task.phase.batch =
      refillsOpened pool.refills :=
  sum_eraseIdx _ htask

theorem warmupsOpened_eraseIdx {index : Nat} {task : WarmupTask}
    (htask : pool.warmups[index]? = some task) :
    warmupsOpened (pool.warmups.eraseIdx index) + tag task.key task.phase.batch =
      warmupsOpened pool.warmups :=
  sum_eraseIdx _ htask

theorem setBucket_map_ws (pool : DirectPool) (key : PoolKey) (bucket : List PoolEntry) :
    (fun other => (setBucket pool.idle key bucket other).map PoolEntry.ws) =
      pool.inventory.setPooled key (bucket.map PoolEntry.ws) := by
  funext other
  unfold setBucket Inventory.setPooled
  split <;> rfl

theorem pushAll_map_ws (bucket : List PoolEntry) (now : Nat) (connections : List Nat) :
    (pushAll bucket now connections).map PoolEntry.ws =
      connections.reverse ++ bucket.map PoolEntry.ws := by
  unfold pushAll
  induction connections generalizing bucket with
  | nil => rfl
  | cons ws rest ih =>
      rw [List.foldl_cons, ih, List.reverse_cons, List.append_assoc]
      rfl

/-- A task that holds no batch moves on without one. -/
theorem inventory_setRefill {index : Nat} {task : RefillTask}
    (htask : pool.refills[index]? = some task) {phase : RefillPhase}
    (hbefore : task.phase.batch = []) (hafter : phase.batch = []) :
    (pool.setRefill index task phase).inventory = pool.inventory := by
  have hset := refillsOpened_set htask phase
  rw [hbefore, hafter, tag_nil, add_zero, add_zero] at hset
  ext1
  · exact congrArg (· + warmupsOpened pool.warmups) hset
  · rfl
  · rfl
  · rfl

theorem getStep_moves (config : Config) (pool : DirectPool) (key : PoolKey) (targetIp : String)
    (allowRefill : Bool) (now : Nat) (closed : Nat → Bool) :
    pool.inventory.Moves (getStep config pool key targetIp allowRefill now closed).inventory := by
  rcases htake : takeFresh config.poolMaxAge now closed (pool.idle key) with ⟨taken, bucket⟩
  obtain ⟨gone, hbucket, _⟩ := takeFresh_takesFirst htake
  have hpooled : pool.inventory.pooled key =
      gone.map PoolEntry.ws ++ ((taken.map PoolEntry.ws).toList ++ bucket.map PoolEntry.ws) := by
    change (pool.idle key).map PoolEntry.ws = _
    rw [hbucket]
    cases taken <;> simp
  have hnext : (getStep config pool key targetIp allowRefill now closed).inventory =
      { pool.inventory with
        pooled := pool.inventory.setPooled key (bucket.map PoolEntry.ws)
        lent := tag key (taken.map PoolEntry.ws).toList + pool.inventory.lent } := by
    simp only [getStep, htake]
    ext1
    · rfl
    · exact setBucket_map_ws pool key bucket
    · cases taken <;> rfl
    · rfl
  rw [hnext]
  exact .lend key hpooled

theorem scheduleRefill_inventory (config : Config) (pool : DirectPool) (key : PoolKey)
    (targetIp : String) : (scheduleRefill config pool key targetIp).inventory = pool.inventory := by
  unfold scheduleRefill
  split
  next => rfl
  next =>
    have hreserved : RefillPhase.reserved.batch = [] := rfl
    ext1
    · simp [DirectPool.inventory, refillsOpened, hreserved]
    · rfl
    · rfl
    · rfl

theorem refillDial_moves {index : Nat} {task : RefillTask}
    (htask : pool.refills[index]? = some task) (hbatch : task.phase.batch = []) (count : Nat) :
    pool.inventory.Moves (refillDial pool index task count).inventory := by
  have hphase : (if freshConnections pool count = [] then RefillPhase.releasing
      else .dialed (freshConnections pool count)).batch = List.range' pool.nextWs count := by
    split
    next hempty => exact hempty.symm
    next => rfl
  have hset := refillsOpened_set htask (if freshConnections pool count = [] then .releasing
    else .dialed (freshConnections pool count))
  rw [hbatch, hphase, tag_nil, add_zero] at hset
  have hnext : (refillDial pool index task count).inventory =
      { pool.inventory with
        opened := pool.inventory.opened + tag task.key (List.range' pool.nextWs count)
        next := pool.nextWs + count } := by
    ext1
    · change refillsOpened (pool.refills.set index _) + warmupsOpened pool.warmups =
        refillsOpened pool.refills + warmupsOpened pool.warmups + _
      rw [hset, add_right_comm]
    · rfl
    · rfl
    · rfl
  rw [hnext]
  exact .openBatch task.key count

theorem refillStore_moves {index : Nat} {task : RefillTask}
    (htask : pool.refills[index]? = some task) (config : Config) (now : Nat) :
    pool.inventory.Moves
      (refillStore config pool index task task.phase.batch now).inventory := by
  have hreleasing : RefillPhase.releasing.batch = [] := rfl
  have hset := refillsOpened_set htask .releasing
  let canAdd := config.poolSize - (pool.idle task.key).length
  let rest := refillsOpened (pool.refills.set index { task with phase := .releasing }) +
    warmupsOpened pool.warmups
  have hopened : pool.inventory.opened =
      rest + tag task.key (task.phase.batch.take canAdd ++ task.phase.batch.drop canAdd) := by
    rw [List.take_append_drop, add_right_comm, hset, hreleasing, tag_nil, add_zero]
    rfl
  have hnext : (refillStore config pool index task task.phase.batch now).inventory =
      { pool.inventory with
        opened := rest
        pooled := pool.inventory.setPooled task.key
          ((task.phase.batch.take canAdd).reverse ++ pool.inventory.pooled task.key) } := by
    ext1
    · rfl
    · change (fun other => (setBucket pool.idle task.key _ other).map PoolEntry.ws) = _
      rw [setBucket_map_ws, pushAll_map_ws]
      rfl
    · rfl
    · rfl
  rw [hnext]
  exact .store task.key hopened

theorem refillRelease_inventory {index : Nat} {task : RefillTask}
    (htask : pool.refills[index]? = some task) (hbatch : task.phase.batch = []) :
    (refillRelease pool index task).inventory = pool.inventory := by
  have herase := refillsOpened_eraseIdx htask
  rw [hbatch, tag_nil, add_zero] at herase
  ext1
  · exact congrArg (· + warmupsOpened pool.warmups) herase
  · rfl
  · rfl
  · rfl

theorem warmupStart_inventory {index : Nat} {task : WarmupTask}
    (htask : pool.warmups[index]? = some task) (hbatch : task.phase.batch = []) :
    (pool.setWarmup index task .dialing).inventory = pool.inventory := by
  have hdialing : WarmupPhase.dialing.batch = [] := rfl
  have hset := warmupsOpened_set htask .dialing
  rw [hbatch, hdialing, tag_nil, add_zero, add_zero] at hset
  ext1
  · exact congrArg (refillsOpened pool.refills + ·) hset
  · rfl
  · rfl
  · rfl

theorem warmupDial_moves {index : Nat} {task : WarmupTask}
    (htask : pool.warmups[index]? = some task) (hbatch : task.phase.batch = []) (count : Nat) :
    pool.inventory.Moves (warmupDial pool index task count).inventory := by
  have hset := warmupsOpened_set htask (.dialed (freshConnections pool count))
  rw [hbatch, tag_nil, add_zero] at hset
  have hnext : (warmupDial pool index task count).inventory =
      { pool.inventory with
        opened := pool.inventory.opened + tag task.key (List.range' pool.nextWs count)
        next := pool.nextWs + count } := by
    ext1
    · change refillsOpened pool.refills + warmupsOpened (pool.warmups.set index _) =
        refillsOpened pool.refills + warmupsOpened pool.warmups + _
      rw [hset, add_assoc]
      rfl
    · rfl
    · rfl
    · rfl
  rw [hnext]
  exact .openBatch task.key count

theorem warmupStore_moves {index : Nat} {task : WarmupTask}
    (htask : pool.warmups[index]? = some task) (now : Nat) :
    pool.inventory.Moves (warmupStore pool index task task.phase.batch now).inventory := by
  let rest := refillsOpened pool.refills + warmupsOpened (pool.warmups.eraseIdx index)
  have hopened : pool.inventory.opened = rest + tag task.key (task.phase.batch ++ []) := by
    rw [List.append_nil, add_assoc]
    exact congrArg (refillsOpened pool.refills + ·) (warmupsOpened_eraseIdx htask).symm
  have hnext : (warmupStore pool index task task.phase.batch now).inventory =
      { pool.inventory with
        opened := rest
        pooled := pool.inventory.setPooled task.key
          (task.phase.batch.reverse ++ pool.inventory.pooled task.key) } := by
    ext1
    · rfl
    · change (fun other => (setBucket pool.idle task.key _ other).map PoolEntry.ws) = _
      rw [setBucket_map_ws, pushAll_map_ws]
      rfl
    · rfl
    · rfl
  rw [hnext]
  exact .store task.key hopened

theorem directMoves_inventory (hmoves : DirectMoves config pool label next) :
    pool.inventory.Moves next.inventory := by
  cases hmoves with
  | get key targetIp allowRefill now closed => exact getStep_moves ..
  | @schedule index key targetIp hpending =>
      change pool.inventory.Moves (scheduleRefill config pool key targetIp).inventory
      rw [scheduleRefill_inventory]
      exact .quiet
  | @refillMeasure index task htask hphase =>
      have hbatch : task.phase.batch = [] := by rw [hphase]; rfl
      simp only [Pool.refillMeasure]
      split
      next =>
        rw [inventory_setRefill htask hbatch rfl]
        exact .quiet
      next =>
        rw [inventory_setRefill htask hbatch rfl]
        exact .quiet
  | refillDial htask hphase hcount => exact refillDial_moves htask (by rw [hphase]; rfl) _
  | @refillStore index now task connections htask hphase =>
      have hbatch : task.phase.batch = connections := by rw [hphase]; rfl
      rw [← hbatch]
      exact refillStore_moves htask config now
  | refillRelease htask hphase =>
      rw [refillRelease_inventory htask (by rw [hphase]; rfl)]
      exact .quiet
  | warmupStart htask hphase hfree =>
      rw [warmupStart_inventory htask (by rw [hphase]; rfl)]
      exact .quiet
  | warmupDial htask hphase hcount => exact warmupDial_moves htask (by rw [hphase]; rfl) _
  | @warmupStore index now task connections htask hphase =>
      have hbatch : task.phase.batch = connections := by rw [hphase]; rfl
      rw [← hbatch]
      exact warmupStore_moves htask now

theorem directPool_moving (config : Config) :
    Moving (directSystem config) DirectPool.inventory where
  start := by
    refine Inventory.locatedBy_empty ?_ (fun _ => rfl) rfl rfl
    have hwaiting : WarmupPhase.waiting.batch = [] := rfl
    simp [DirectPool.inventory, directSystem, DirectPool.start, refillsOpened, warmupsOpened,
      Function.comp_def, hwaiting]
  step := fun hstep => directMoves_inventory (directStep_moves hstep)

end Direct

/-! ## The Cloudflare map -/

section Cloudflare

variable {config : Config} {width : PointerWidth} {ledger next : CfLedger}

def CfRefillPhase.batch : CfRefillPhase → List Nat
  | .dialed ws => [ws]
  | .reserved | .dialing | .releasing => []

def cfRefillsOpened (refills : List CfRefillTask) : Multiset (CfKey × Nat) :=
  (refills.map fun task => tag task.target.key task.phase.batch).sum

def CfLedger.inventory (ledger : CfLedger) : Inventory CfKey where
  opened := cfRefillsOpened ledger.refills
  pooled := fun key => (ledger.idle key).map CfEntry.ws
  lent := (ledger.served.map fun served => (served.1, served.2.2) : List _)
  next := ledger.nextWs

theorem cfRefillsOpened_set {index : Nat} {task : CfRefillTask}
    (htask : ledger.refills[index]? = some task) (phase : CfRefillPhase) :
    cfRefillsOpened (ledger.refills.set index { task with phase }) +
        tag task.target.key task.phase.batch =
      cfRefillsOpened ledger.refills + tag task.target.key phase.batch :=
  sum_set _ htask _

theorem cfRefillsOpened_eraseIdx {index : Nat} {task : CfRefillTask}
    (htask : ledger.refills[index]? = some task) :
    cfRefillsOpened (ledger.refills.eraseIdx index) + tag task.target.key task.phase.batch =
      cfRefillsOpened ledger.refills :=
  sum_eraseIdx _ htask

theorem setCfBucket_map_ws (ledger : CfLedger) (key : CfKey) (bucket : List CfEntry) :
    (fun other => (setCfBucket ledger.idle key bucket other).map CfEntry.ws) =
      ledger.inventory.setPooled key (bucket.map CfEntry.ws) := by
  funext other
  unfold setCfBucket Inventory.setPooled
  split <;> rfl

/-- A task that holds no connection moves on without one. -/
theorem cfLedger_moves_advance {index : Nat} {task : CfRefillTask}
    (htask : ledger.refills[index]? = some task) {phase : CfRefillPhase}
    (hbefore : task.phase.batch = []) (hafter : phase.batch = [])
    (hrefills : next.refills = ledger.refills.set index { task with phase })
    (hidle : next.idle = ledger.idle) (hserved : next.served = ledger.served)
    (hopened : next.nextWs = ledger.nextWs) : ledger.inventory.Moves next.inventory := by
  have hset := cfRefillsOpened_set htask phase
  rw [hbefore, hafter, tag_nil, add_zero, add_zero] at hset
  have hnext : next.inventory = ledger.inventory := by
    simp only [CfLedger.inventory, hrefills, hset, hidle, hserved, hopened]
  rw [hnext]
  exact .quiet

/-- A connection leaves its task: it is stored, or dropped as surplus. -/
theorem cfLedger_moves_store {index ws : Nat} {task : CfRefillTask}
    (htask : ledger.refills[index]? = some task) (hphase : task.phase = .dialed ws)
    {kept surplus : List Nat} (hbatch : kept ++ surplus = [ws])
    (hrefills : next.refills = ledger.refills.set index { task with phase := .releasing })
    (hidle : next.inventory.pooled =
      ledger.inventory.setPooled task.target.key
        (kept.reverse ++ ledger.inventory.pooled task.target.key))
    (hserved : next.served = ledger.served) (hopened : next.nextWs = ledger.nextWs) :
    ledger.inventory.Moves next.inventory := by
  have hreleasing : CfRefillPhase.releasing.batch = [] := rfl
  have hheld : task.phase.batch = kept ++ surplus := by rw [hphase, hbatch]; rfl
  have hset := cfRefillsOpened_set htask .releasing
  rw [hheld, hreleasing, tag_nil, add_zero, ← hrefills] at hset
  have hnext : next.inventory =
      { ledger.inventory with
        opened := cfRefillsOpened next.refills
        pooled := ledger.inventory.setPooled task.target.key
          (kept.reverse ++ ledger.inventory.pooled task.target.key) } := by
    ext1
    · rfl
    · exact hidle
    · simp only [CfLedger.inventory, hserved]
    · exact hopened
  rw [hnext]
  exact .store task.target.key hset.symm

theorem cfLedgerMoves_inventory (hmoves : CfLedgerMoves config ledger next) :
    ledger.inventory.Moves next.inventory := by
  cases hmoves with
  | quiet => exact .quiet
  | inline key name => exact .lendAtOnce key
  | @hit key now closed gone rest entry hbucket hgone hentry =>
      have hpooled : ledger.inventory.pooled key =
          gone.map CfEntry.ws ++ ((some entry.ws).toList ++ rest.map CfEntry.ws) := by
        change (ledger.idle key).map CfEntry.ws = _
        rw [hbucket, List.map_append]
        rfl
      have hmove := Inventory.Moves.lend key hpooled
      rwa [← setCfBucket_map_ws] at hmove
  | miss key =>
      have hpooled : ledger.inventory.pooled key =
          ledger.inventory.pooled key ++ ((none : Option Nat).toList ++ []) := by simp
      have hmove : ledger.inventory.Moves
          { ledger.inventory with
            pooled := ledger.inventory.setPooled key (([] : List CfEntry).map CfEntry.ws)
            lent := 0 + ledger.inventory.lent } := .lend key hpooled
      rwa [← setCfBucket_map_ws, zero_add] at hmove
  | spawn target hsize hfree =>
      have hreserved : CfRefillPhase.reserved.batch = [] := rfl
      have hopened : cfRefillsOpened (ledger.refills ++ [⟨target, .reserved⟩]) =
          cfRefillsOpened ledger.refills := by
        simp [cfRefillsOpened, hreserved]
      simp only [CfLedger.inventory, hopened]
      exact .quiet
  | measuredFull htask hphase hfull =>
      exact cfLedger_moves_advance htask (by rw [hphase]; rfl) (by rfl) rfl rfl rfl rfl
  | measuredRoom htask hphase hroom =>
      exact cfLedger_moves_advance htask (by rw [hphase]; rfl) (by rfl) rfl rfl rfl rfl
  | @connected index task htask hphase =>
      have hbatch : task.phase.batch = [] := by rw [hphase]; rfl
      have hset := cfRefillsOpened_set htask (.dialed ledger.nextWs)
      rw [hbatch, tag_nil, add_zero] at hset
      simp only [CfLedger.inventory, CfLedger.setRefill, hset]
      exact .openBatch task.target.key 1
  | failed htask hphase =>
      exact cfLedger_moves_advance htask (by rw [hphase]; rfl) (by rfl) rfl rfl rfl rfl
  | @stored index ws now task htask hphase hroom =>
      refine cfLedger_moves_store htask hphase (List.append_nil [ws]) rfl ?_ rfl rfl
      exact setCfBucket_map_ws ledger task.target.key _
  | @surplus index ws task htask hphase hfull =>
      refine cfLedger_moves_store htask hphase (List.nil_append [ws]) rfl ?_ rfl rfl
      funext key
      simp only [Inventory.setPooled, List.reverse_nil, List.nil_append]
      split
      next hkey => rw [hkey]; rfl
      next => rfl
  | released htask hphase =>
      have herase := cfRefillsOpened_eraseIdx htask
      rw [hphase] at herase
      simp only [CfRefillPhase.batch, tag_nil, add_zero] at herase
      simp only [CfLedger.inventory, herase]
      exact .quiet

theorem cfPool_moving (config : Config) (width : PointerWidth) :
    Moving (cfSystem config width) fun pool => pool.ledger.inventory where
  start := Inventory.locatedBy_empty rfl (fun _ => rfl) rfl rfl
  step := fun hstep => cfLedgerMoves_inventory (cfStep_ledger hstep)

end Cloudflare

/-! ## Lookups and runs -/

/-- What `get` hands out, and what it leaves. -/
theorem getStep_takesFirst (config : Config) (pool : DirectPool) (key : PoolKey)
    (targetIp : String) (allowRefill : Bool) (now : Nat) (closed : Nat → Bool) :
    ∃ taken, TakesFirst
        (fun entry : PoolEntry => Usable config.poolMaxAge now closed entry.ws entry.created)
        (pool.idle key) ((getStep config pool key targetIp allowRefill now closed).idle key) taken ∧
      (getStep config pool key targetIp allowRefill now closed).served =
        taken.toList.map (key, ·) ++ pool.served := by
  rcases htake : takeFresh config.poolMaxAge now closed (pool.idle key) with ⟨taken, bucket⟩
  refine ⟨taken, ?_, ?_⟩
  · simpa [getStep, htake] using takeFresh_takesFirst htake
  · cases taken <;> simp [getStep, htake]

/-- What `cf_get` hands out, and what it leaves. -/
theorem cfGet_takesFirst {config : Config} {width : PointerWidth} {pool next : CfPool}
    {index now : Nat} {closed : Nat → Bool}
    (hstep : cfStep config width pool (.get index now closed) = some next) :
    ∃ client taken, pool.clients[index]? = some client ∧
      TakesFirst
        (fun entry : CfEntry => Usable config.poolMaxAge now closed entry.ws entry.created)
        (pool.idle client.key) (next.idle client.key) taken ∧
      next.served =
        taken.toList.map (fun entry => (client.key, entry.domain, entry.ws)) ++ pool.served := by
  obtain ⟨client, hclient, hmove⟩ := Option.bind_eq_some_iff.mp hstep
  have hlookup : ∀ onMiss : CfPool → CfPool,
      (∀ other, (onMiss other).idle = other.idle ∧ (onMiss other).served = other.served) →
      ∃ taken, TakesFirst
          (fun entry : CfEntry => Usable config.poolMaxAge now closed entry.ws entry.created)
          (pool.idle client.key)
          ((cfGet config pool index client now closed onMiss).idle client.key) taken ∧
        (cfGet config pool index client now closed onMiss).served =
          taken.toList.map (fun entry => (client.key, entry.domain, entry.ws)) ++ pool.served := by
    intro onMiss hmiss
    rcases htake : takeFreshCf config.poolMaxAge now closed (pool.idle client.key) with
      ⟨taken, bucket⟩
    have hfirst := takeFreshCf_takesFirst htake
    refine ⟨taken, ?_, ?_⟩
    · cases taken with
      | none => simpa [cfGet, htake, (hmiss _).1, setCfBucket] using hfirst
      | some entry => simpa [cfGet, htake, CfPool.setClient, setCfBucket] using hfirst
    · cases taken with
      | none => simp [cfGet, htake, (hmiss _).2]
      | some entry => simp [cfGet, htake]
  simp only [clientStep] at hmove
  split at hmove
  next first htier hphase =>
    cases hmove
    obtain ⟨taken, hfirst, hserved⟩ := hlookup
      (fun pool => walkRecords pool index client
        (CfAttempts.withOffset client.dc config.cfDomains first))
      (fun other => by unfold walkRecords; split <;> exact ⟨rfl, rfl⟩)
    exact ⟨client, taken, hclient, hfirst, hserved⟩
  next htier hphase =>
    cases hmove
    obtain ⟨taken, hfirst, hserved⟩ := hlookup
      (fun pool => pool.setClient index client .missed) (fun other => ⟨rfl, rfl⟩)
    exact ⟨client, taken, hclient, hfirst, hserved⟩
  next => cases hmove

/-- Over every run of clients, refill tasks and the warm-up, and in both maps: a
connection is in one place at a time, in one bucket slot, with one client, in the
hands of the task that opened it, or dropped; what was handed out stays with its
client, and went to the key it was opened for. A lookup hands out the most
recently stored connection that is young enough at `now` and on which nothing has
arrived, and drops exactly those above it. -/
theorem pooled_connections_owned (config : Config) (width : PointerWidth) :
    OneOwner (directSystem config) DirectPool.inventory ∧
    OneOwner (cfSystem config width) (fun pool => pool.ledger.inventory) ∧
    (∀ pool next key targetIp allowRefill now closed,
      directStep config pool (.get key targetIp allowRefill now closed) = some next →
      ∃ taken, TakesFirst
          (fun entry : PoolEntry => Usable config.poolMaxAge now closed entry.ws entry.created)
          (pool.idle key) (next.idle key) taken ∧
        next.served = taken.toList.map (key, ·) ++ pool.served) ∧
    (∀ pool next index now closed,
      cfStep config width pool (.get index now closed) = some next →
      ∃ client taken, pool.clients[index]? = some client ∧
        TakesFirst
          (fun entry : CfEntry => Usable config.poolMaxAge now closed entry.ws entry.created)
          (pool.idle client.key) (next.idle client.key) taken ∧
        next.served =
          taken.toList.map (fun entry => (client.key, entry.domain, entry.ws)) ++ pool.served) := by
  refine ⟨(directPool_moving config).oneOwner, (cfPool_moving config width).oneOwner, ?_, ?_⟩
  · intro pool next key targetIp allowRefill now closed hstep
    cases hstep
    exact getStep_takesFirst config pool key targetIp allowRefill now closed
  · intro pool next index now closed hstep
    exact cfGet_takesFirst hstep

end TgWsProxy.Pool
