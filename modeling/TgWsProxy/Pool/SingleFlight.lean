import TgWsProxy.Pool.CfLedger
import TgWsProxy.Pool.Direct

/-!
# One refill per key

The caller of `get`, or of `cf_prefetch`, reserves the key and spawns the task;
the task's guard releases the key on every way out. In both maps the reserved
keys are the keys of the running tasks, and no key has two.
-/

namespace TgWsProxy.Pool

open Foundation.Machine Foundation.Reservation Foundation.Transition

/-! ## The direct map -/

section Direct

variable {config : Config} {pool next : DirectPool} {label : DirectLabel}

theorem directMoves_singleFlight
    (hpool : SingleFlight RefillTask.key pool.refilling pool.refills)
    (hmoves : DirectMoves config pool label next) :
    SingleFlight RefillTask.key next.refilling next.refills := by
  cases hmoves with
  | get key targetIp allowRefill now closed => exact hpool
  | @schedule index key targetIp hpending =>
      simp only [scheduleRefill]
      split
      next => exact hpool
      next hspawn =>
        rw [not_or] at hspawn
        exact hpool.spawn ⟨key, targetIp, .reserved⟩ hspawn.2
  | @refillMeasure index task htask hphase =>
      simp only [Pool.refillMeasure]
      split
      next => exact hpool.advance htask rfl
      next => exact hpool.advance htask rfl
  | refillDial htask hphase hcount => exact hpool.advance htask rfl
  | refillStore htask hphase => exact hpool.advance htask rfl
  | refillRelease htask hphase => exact hpool.finish htask
  | warmupStart htask hphase hfree => exact hpool
  | warmupDial htask hphase hcount => exact hpool
  | warmupStore htask hphase => exact hpool

theorem directPool_singleFlight {labels : List DirectLabel}
    (hvisits : (directSystem config).Visits labels pool) :
    SingleFlight RefillTask.key pool.refilling pool.refills :=
  System.Visits.invariant (directSystem config) (.nil fun _ => rfl)
    (fun _ _ _ hstep hstate => directMoves_singleFlight hstate (directStep_moves hstep)) hvisits

/-- No refill task runs and no connection was opened, not even by the warm-up. -/
def DirectPool.Dormant (pool : DirectPool) : Prop := pool.refills = [] ∧ pool.nextWs = 0

theorem DirectPool.Dormant.step (hsize : config.poolSize = 0) (hpool : pool.Dormant)
    (hmoves : DirectMoves config pool label next) : next.Dormant := by
  have hnone : ∀ {index : Nat} {task : RefillTask}, pool.refills[index]? ≠ some task := by
    intro index task htask
    rw [hpool.1] at htask
    cases htask
  cases hmoves with
  | get key targetIp allowRefill now closed => exact hpool
  | @schedule index key targetIp hpending =>
      change (scheduleRefill config pool key targetIp).Dormant
      unfold scheduleRefill
      rw [if_pos (.inl hsize)]
      exact hpool
  | refillMeasure htask hphase => exact (hnone htask).elim
  | refillDial htask hphase hcount => exact (hnone htask).elim
  | refillStore htask hphase => exact (hnone htask).elim
  | refillRelease htask hphase => exact (hnone htask).elim
  | warmupStart htask hphase hfree => exact hpool
  | @warmupDial index count task htask hphase hcount =>
      have hzero : count = 0 := by omega
      subst hzero
      exact hpool
  | warmupStore htask hphase => exact hpool

end Direct

/-! ## The Cloudflare map -/

section Cloudflare

variable {config : Config} {width : PointerWidth} {ledger next : CfLedger}

def CfRefillTask.key (task : CfRefillTask) : CfKey := task.target.key

theorem cfLedgerMoves_singleFlight
    (hledger : SingleFlight CfRefillTask.key ledger.refilling ledger.refills)
    (hmoves : CfLedgerMoves config ledger next) :
    SingleFlight CfRefillTask.key next.refilling next.refills := by
  cases hmoves with
  | quiet => exact hledger
  | inline key name => exact hledger
  | hit key hbucket hgone hentry => exact hledger
  | miss key => exact hledger
  | spawn target hsize hfree =>
      exact hledger.spawn ⟨target, .reserved⟩ hfree
  | measuredFull htask hphase hfull => exact hledger.advance htask rfl
  | measuredRoom htask hphase hroom => exact hledger.advance htask rfl
  | connected htask hphase => exact hledger.advance htask rfl
  | failed htask hphase => exact hledger.advance htask rfl
  | stored htask hphase hroom => exact hledger.advance htask rfl
  | surplus htask hphase hfull => exact hledger.advance htask rfl
  | released htask hphase => exact hledger.finish htask

theorem cfPool_singleFlight {labels : List CfLabel} {pool : CfPool}
    (hvisits : (cfSystem config width).Visits labels pool) :
    SingleFlight CfRefillTask.key pool.refilling pool.refills :=
  CfLedger.invariant
    (fun ledger => SingleFlight CfRefillTask.key ledger.refilling ledger.refills)
    (.nil fun _ => rfl)
    (fun _ _ hmoves hledger => cfLedgerMoves_singleFlight hledger hmoves) hvisits

end Cloudflare

/-! ## Runs -/

/-- In every state of either map, whatever clients and tasks do, a key is
reserved exactly while its one refill task exists, and a request for a key
without a task starts one. With `pool_size` zero there is never a task, a
reservation or a background connection. -/
theorem refills_single_flight (config : Config) (width : PointerWidth) :
    (∀ labels pool, (directSystem config).Visits labels pool →
      (∀ key, pool.refills.countP (fun task => task.key = key) ≤ 1 ∧
        (pool.refilling key = true ↔ ∃ task ∈ pool.refills, task.key = key) ∧
        (config.poolSize ≠ 0 → (∀ task ∈ pool.refills, task.key ≠ key) →
          ∀ targetIp, (scheduleRefill config pool key targetIp).refills =
            pool.refills ++ [⟨key, targetIp, .reserved⟩])) ∧
      (config.poolSize = 0 →
        pool.refills = [] ∧ (∀ key, pool.refilling key = false) ∧ pool.nextWs = 0)) ∧
    (∀ labels pool, (cfSystem config width).Visits labels pool →
      (∀ key, pool.refills.countP (fun task => task.key = key) ≤ 1 ∧
        (pool.refilling key = true ↔ ∃ task ∈ pool.refills, task.key = key) ∧
        (config.poolSize ≠ 0 → (∀ task ∈ pool.refills, task.key ≠ key) →
          ∀ target, target.key = key → (cfPrefetch config pool target).refills =
            pool.refills ++ [⟨target, .reserved⟩])) ∧
      (config.poolSize = 0 →
        pool.refills = [] ∧ (∀ key, pool.refilling key = false) ∧ pool.dials = [])) := by
  refine ⟨fun labels pool hvisits => ?_, fun labels pool hvisits => ?_⟩
  · have hflight := directPool_singleFlight hvisits
    refine ⟨fun key => ⟨hflight.countP_le_one key, hflight.reserved_iff_exists key, ?_⟩, ?_⟩
    · intro hsize hnone targetIp
      have hfree := hflight.free_of_forall hnone
      simp [scheduleRefill, hsize, hfree]
    · intro hsize
      obtain ⟨hrefills, hopened⟩ : pool.Dormant :=
        System.Visits.invariant (directSystem config) ⟨rfl, rfl⟩
          (fun _ _ _ hstep hstate => hstate.step hsize (directStep_moves hstep)) hvisits
      refine ⟨hrefills, fun key => hflight.free_of_forall ?_, hopened⟩
      simp [hrefills]
  · have hflight := cfPool_singleFlight hvisits
    refine ⟨fun key => ⟨hflight.countP_le_one key, hflight.reserved_iff_exists key, ?_⟩, ?_⟩
    · rintro hsize hnone target rfl
      have hfree := hflight.free_of_forall hnone
      simp [cfPrefetch, hsize, hfree]
    · intro hsize
      obtain ⟨hrefills, hdials⟩ : pool.ledger.Dormant :=
        CfLedger.invariant CfLedger.Dormant ⟨rfl, rfl⟩
          (fun _ _ hmoves hledger => hledger.step hsize hmoves) hvisits
      refine ⟨hrefills, fun key => hflight.free_of_forall ?_, hdials⟩
      have hempty : pool.refills = [] := hrefills
      simp [hempty]

end TgWsProxy.Pool
