import TgWsProxy.Pool.Direct

/-!
# Capacity of the direct pool

Three writers touch a bucket: `get` only takes, a refill task checks for room
again before it stores, the warm-up does not. So a bucket outgrows `pool_size`
exactly when a warm-up batch is stored into a bucket without room for it, which
happens when a client's refill has filled the bucket in the meantime.
-/

namespace TgWsProxy.Pool

open Foundation.Transition

/-! ## Bucket sizes -/

theorem takeFresh_length (maxAge now : Nat) (closed : Nat → Bool) (bucket : List PoolEntry) :
    (takeFresh maxAge now closed bucket).2.length ≤ bucket.length := by
  induction bucket with
  | nil => exact Nat.le_refl 0
  | cons entry rest ih =>
      unfold takeFresh
      split
      next => exact Nat.le_succ_of_le ih
      next =>
        split
        next => exact Nat.le_succ_of_le ih
        next => exact Nat.le_succ _

@[simp] theorem pushAll_length (bucket : List PoolEntry) (now : Nat) (connections : List Nat) :
    (pushAll bucket now connections).length = bucket.length + connections.length := by
  unfold pushAll
  induction connections generalizing bucket with
  | nil => rfl
  | cons ws rest ih =>
      rw [List.foldl_cons, ih, List.length_cons, List.length_cons]
      omega

/-- No bucket holds more than the configured number of connections. -/
def WithinCapacity (config : Config) (pool : DirectPool) : Prop :=
  ∀ key, (pool.idle key).length ≤ config.poolSize

/-- Replacing one bucket by one that is not too large. -/
theorem WithinCapacity.setBucket {config : Config} {pool next : DirectPool}
    (hpool : WithinCapacity config pool) {key : PoolKey} {bucket : List PoolEntry}
    (hbucket : bucket.length ≤ config.poolSize)
    (hidle : next.idle = Pool.setBucket pool.idle key bucket) : WithinCapacity config next := by
  intro other
  rw [hidle]
  by_cases hother : other = key
  · subst hother
    rwa [setBucket_self]
  · rw [setBucket_of_ne _ _ hother]
    exact hpool other

/-! ## Steps -/

/-- A warm-up batch that is about to be stored fits into its bucket. -/
def WarmupHasRoom (config : Config) (pool : DirectPool) : DirectLabel → Prop
  | .warmupStore index _ =>
      ∀ task connections, pool.warmups[index]? = some task → task.phase = .dialed connections →
        (pool.idle task.key).length + connections.length ≤ config.poolSize
  | _ => True

theorem scheduleRefill_idle (config : Config) (pool : DirectPool) (key : PoolKey)
    (targetIp : String) : (scheduleRefill config pool key targetIp).idle = pool.idle := by
  unfold scheduleRefill
  split <;> rfl

theorem refillMeasure_idle (config : Config) (pool : DirectPool) (index : Nat)
    (task : RefillTask) : (refillMeasure config pool index task).idle = pool.idle := by
  unfold refillMeasure
  simp only
  split <;> rfl

/-- Every step but the storing of a warm-up batch keeps the buckets within
capacity, and that one does when the batch fits. -/
theorem WithinCapacity.step {config : Config} {pool next : DirectPool} {label : DirectLabel}
    (hpool : WithinCapacity config pool) (hroom : WarmupHasRoom config pool label)
    (hstep : directStep config pool label = some next) : WithinCapacity config next := by
  cases directStep_moves hstep with
  | get key targetIp allowRefill now closed =>
      refine hpool.setBucket ?_ rfl
      exact Nat.le_trans (takeFresh_length _ _ _ _) (hpool key)
  | @schedule index key targetIp hpending =>
      intro other
      change ((scheduleRefill config pool key targetIp).idle other).length ≤ _
      rw [scheduleRefill_idle]
      exact hpool other
  | @refillMeasure index task htask hphase =>
      intro other
      rw [refillMeasure_idle]
      exact hpool other
  | refillDial htask hphase hcount => exact hpool
  | @refillStore index now task connections htask hphase =>
      refine hpool.setBucket ?_ rfl
      -- The room is measured again under the lock that the batch is stored under.
      have hbucket := hpool task.key
      rw [pushAll_length, List.length_take]
      omega
  | refillRelease htask hphase => exact hpool
  | warmupStart htask hphase hfree => exact hpool
  | warmupDial htask hphase hcount => exact hpool
  | @warmupStore index now task connections htask hphase =>
      refine hpool.setBucket ?_ rfl
      rw [pushAll_length]
      exact hroom task connections htask hphase

/-! ## Runs -/

/-- In a run of any number of clients, refill tasks and the warm-up, in any
order and with any dial results, every bucket stays within `pool_size` in every
state exactly when each warm-up batch finds room for all of it in its bucket at
the moment it is stored. -/
theorem direct_pool_capacity (config : Config) (labels : List DirectLabel) :
    (∀ pool, (directSystem config).Visits labels pool →
      ∀ key, (pool.idle key).length ≤ config.poolSize) ↔
    ∀ pool label, (directSystem config).Takes labels pool label →
      WarmupHasRoom config pool label := by
  constructor
  · intro hcapacity pool label htakes
    cases label with
    | warmupStore index now =>
        intro task connections htask hphase
        have hstep : (directSystem config).step pool (.warmupStore index now) =
            some (warmupStore pool index task connections now) := by
          simp [directSystem, directStep, htask, hphase]
        have hnext := hcapacity _ (htakes.visits _ hstep) task.key
        simpa [warmupStore] using hnext
    | _ => trivial
  · intro hroom pool hvisits
    have hstart : WithinCapacity config (directSystem config).start := fun key => Nat.zero_le _
    exact System.Visits.induct (directSystem config) hstart
      (fun state label next htakes hstep hstate =>
        WithinCapacity.step hstate (hroom state label htakes) hstep) hvisits

/-- One data centre with one pooled connection for each class. -/
def oneSlotConfig : Config := { poolSize := 1, dcIp := [(2, "149.154.167.220")] }

/-- A client misses while the warm-up is still dialling; its refill stores the
only connection there is room for, and then the warm-up stores another. -/
def overfillRun : List DirectLabel :=
  [.warmupStart 0, .get (2, false) "149.154.167.220" true 0 (fun _ => false), .schedule 0,
    .refillMeasure 0, .refillDial 0 1, .refillStore 0 0, .warmupDial 0 1, .warmupStore 0 0]

theorem direct_pool_overfilled :
    ∃ pool, (directSystem oneSlotConfig).Visits overfillRun pool ∧
      (pool.idle (2, false)).length = 2 ∧ oneSlotConfig.poolSize = 1 :=
  ⟨_, ⟨overfillRun, [], rfl, rfl⟩, rfl, rfl⟩

end TgWsProxy.Pool
