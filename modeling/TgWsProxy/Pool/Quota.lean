import TgWsProxy.Pool.SingleFlight
import TgWsProxy.Pool.Vouchers

/-!
# What the Cloudflare pool may spend

An idle connection through Cloudflare costs the quota of somebody's Worker. A
bucket holds at most one, at most one more is being opened, and every dial in
the background is paid for by a connection that a client obtained before.
-/

namespace TgWsProxy.Pool

open Foundation.Machine Foundation.Reservation Foundation.Transition

/-- The task is opening a connection or holds one that is not stored yet. -/
def CfRefillPhase.opening : CfRefillPhase → Bool
  | .dialing | .dialed _ => true
  | .reserved | .releasing => false

/-! ## Buckets -/

/-- No bucket holds more than its budget. -/
def CfLedger.WithinBudget (config : Config) (ledger : CfLedger) : Prop :=
  ∀ key, (ledger.idle key).length ≤ cfBudget config

theorem CfLedger.WithinBudget.setCfBucket {config : Config} {ledger next : CfLedger}
    (hledger : ledger.WithinBudget config) {key : CfKey} {bucket : List CfEntry}
    (hbucket : bucket.length ≤ cfBudget config)
    (hidle : next.idle = Pool.setCfBucket ledger.idle key bucket) : next.WithinBudget config := by
  intro other
  rw [hidle, Pool.setCfBucket]
  split
  next => exact hbucket
  next => exact hledger other

theorem CfLedger.WithinBudget.step {config : Config} {ledger next : CfLedger}
    (hledger : ledger.WithinBudget config) (hmoves : CfLedgerMoves config ledger next) :
    next.WithinBudget config := by
  cases hmoves with
  | @hit key now closed gone rest entry hbucket hgone hentry =>
      refine hledger.setCfBucket ?_ rfl
      have hlength := hledger key
      rw [hbucket, List.length_append, List.length_cons] at hlength
      omega
  | miss key => exact hledger.setCfBucket (Nat.zero_le _) rfl
  | stored htask hphase hroom =>
      refine hledger.setCfBucket ?_ rfl
      rw [List.length_cons]
      exact hroom
  | _ => exact hledger

/-! ## Runs -/

/-- In every state of the Cloudflare pool a bucket holds at most one connection,
and none with `pool_size` zero; at most one more is being opened for its key;
and the dials made in the background for a key are at most as many as the
connections of that key that clients had obtained by then. Each dial was caused
by one of these: followed along the run, the claim of the client that obtained a
connection passes to the task it spawns and from the task to the dial, under one
key, and no connection causes a second dial. -/
theorem cf_pool_quota (config : Config) (width : PointerWidth) (labels : List CfLabel)
    (pool : CfPool) (hvisits : (cfSystem config width).Visits labels pool) (key : CfKey) :
    (pool.idle key).length ≤ min 1 config.poolSize ∧
      pool.refills.countP (fun task => task.key = key ∧ task.phase.opening) ≤ 1 ∧
      pool.dials.countP (fun dial => dial.key = key) ≤
        pool.served.countP (fun connection => connection.1 = key) ∧
      ∃ vouchers, (voucherSystem config width).Visits labels (pool, vouchers) ∧
        vouchers.dials.Nodup ∧
        List.Forall₂ (fun number dial => ∃ name ws,
          pool.served.reverse[number]? = some (dial.key, name, ws)) vouchers.dials pool.dials := by
  have hbudget : pool.ledger.WithinBudget config :=
    CfLedger.invariant (CfLedger.WithinBudget config) (fun _ => Nat.zero_le _)
      (fun _ _ hmoves hledger => hledger.step hmoves) hvisits
  obtain ⟨vouchers, hvouchers⟩ := hvisits.recording CfVouchers.start
  have hsound := CfVouchers.Sound.visits hvouchers
  have hnodup := hsound.nodup_dials
  refine ⟨hbudget key, ?_, ?_, vouchers, hvouchers, hnodup, ?_⟩
  · refine Nat.le_trans (List.countP_mono_left ?_) ((cfPool_singleFlight hvisits).countP_le_one key)
    intro task htask hopening
    simp only [Bool.decide_and, Bool.and_eq_true, decide_eq_true_eq] at hopening ⊢
    exact hopening.1
  · rw [← CfPool.countP_grants]
    exact hsound.dials.countP_le hnodup key
  · refine hsound.dials.imp fun number dial hnumber => ?_
    obtain ⟨⟨_, name, ws⟩, hconnection, rfl⟩ := Option.map_eq_some_iff.mp
      (List.getElem?_map .. ▸ hnumber)
    exact ⟨name, ws, hconnection⟩

/-- One Worker, and room for one pooled connection. -/
def oneWorkerConfig : Config := { poolSize := 1, cfWorkerDomains := ["w.example"] }

/-- A client connects inline through the Worker, and the spare is being dialled. -/
def workerSpareRun : List CfLabel :=
  [.arrive .worker 2 false "", .get 0 0 (fun _ => false), .rotate 0, .dial 0 (.connected ()),
    .describe 0, .prefetch 0, .refillMeasure 0]

theorem cf_pool_quota_one_worker :
    ∃ pool, (cfSystem oneWorkerConfig .bits64).Visits workerSpareRun pool ∧
      pool.dials = [⟨(.worker, 2, false), "w.example"⟩] ∧
      (pool.idle (.worker, 2, false)).length ≤ min 1 oneWorkerConfig.poolSize ∧
      pool.refills.countP (fun task => task.key = (.worker, 2, false) ∧ task.phase.opening) ≤ 1 ∧
      pool.dials.countP (fun dial => dial.key = (.worker, 2, false)) ≤
        pool.served.countP (fun connection => connection.1 = (.worker, 2, false)) ∧
      ∃ vouchers, (voucherSystem oneWorkerConfig .bits64).Visits workerSpareRun (pool, vouchers) ∧
        vouchers.dials.Nodup ∧
        List.Forall₂ (fun number dial => ∃ name ws,
          pool.served.reverse[number]? = some (dial.key, name, ws)) vouchers.dials pool.dials :=
  have hvisits : (cfSystem oneWorkerConfig .bits64).Visits workerSpareRun _ :=
    ⟨workerSpareRun, [], rfl, rfl⟩
  ⟨_, hvisits, rfl, cf_pool_quota oneWorkerConfig .bits64 workerSpareRun _ hvisits _⟩

end TgWsProxy.Pool
