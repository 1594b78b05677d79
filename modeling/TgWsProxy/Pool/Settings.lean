import TgWsProxy.Pool.CfOrigin
import TgWsProxy.Pool.Direct

/-!
# Settings that travel with a connection

The tasks of the direct map carry the address they dial; the targets and entries of the
Cloudflare map carry copies of the two switches for TLS. Neither is read from the
configuration again on the way from one task to the next, so both have to be followed
through the state.
-/

namespace TgWsProxy.Pool

open Foundation.Machine Foundation.Transition TgWsProxy.Cloudflare

/-! ## Addresses of the direct map -/

/-- What the tasks of the direct map dial, and for which bucket. -/
def DirectPool.addresses (pool : DirectPool) : List (PoolKey × String) :=
  pool.scheduling ++ pool.refills.map (fun task => (task.key, task.targetIp)) ++
    pool.warmups.map fun task => (task.key, task.ip)

section Addresses

variable {config : Config} {pool next : DirectPool} {label : DirectLabel}
variable {pair : PoolKey × String}

theorem DirectPool.mem_addresses :
    pair ∈ pool.addresses ↔ pair ∈ pool.scheduling ∨
      (∃ task ∈ pool.refills, (task.key, task.targetIp) = pair) ∨
        ∃ task ∈ pool.warmups, (task.key, task.ip) = pair := by
  unfold addresses
  rw [List.mem_append, List.mem_append, List.mem_map, List.mem_map, or_assoc]

/-- Addresses come in through `get` only. -/
theorem mem_addresses_of_moves (hmoves : DirectMoves config pool label next)
    (hpair : pair ∈ next.addresses) :
    pair ∈ pool.addresses ∨ ∃ now closed, label = .get pair.1 pair.2 true now closed := by
  rw [DirectPool.mem_addresses] at hpair ⊢
  rcases hpair with hpair | ⟨task, htask, rfl⟩ | ⟨task, htask, rfl⟩
  · exact (scheduling_of_moves hmoves hpair).imp_left .inl
  · rcases refill_of_moves hmoves htask with hearlier | ⟨index, -, hpending⟩
    · exact .inl (.inr (.inl hearlier))
    · exact .inl (.inl (List.mem_of_getElem? hpending))
  · exact .inl (.inr (.inr (warmup_of_moves hmoves htask)))

theorem dcTargetIp_of_mem_start (hpair : pair ∈ (DirectPool.start config).addresses) :
    config.dcTargetIp pair.1.1 = some pair.2 := by
  rw [DirectPool.mem_addresses] at hpair
  rcases hpair with hpair | ⟨task, htask, -⟩ | ⟨task, htask, rfl⟩
  · cases hpair
  · cases htask
  · obtain ⟨job, hjob, rfl⟩ := List.mem_map.mp htask
    exact Config.dcTargetIp_of_mem_dcRedirects (mem_dcRedirects_of_mem_warmupJobs hjob)

end Addresses

/-! ## Copies in the Cloudflare map -/

def CfTarget.Copies (config : Config) (target : CfTarget) : Prop :=
  target.skipTlsVerify = config.skipTlsVerify ∧ target.disableTls = config.cfDisableTls

def CfEntry.Copies (config : Config) (entry : CfEntry) : Prop :=
  entry.skipTlsVerify = config.skipTlsVerify ∧ entry.disableTls = config.cfDisableTls

/-- The target that a client is about to hand to the pool copies the switches. -/
def CfPhase.Copies (config : Config) : CfPhase → Prop
  | .prefetching target => target.Copies config
  | .entered | .rotated _ | .missed | .walkingRecords _ _ | .walkingWorkers _ _
  | .connected _ => True

structure CfPool.Copies (config : Config) (pool : CfPool) : Prop where
  clients : ∀ client ∈ pool.clients, client.phase.Copies config
  refills : ∀ task ∈ pool.refills, task.target.Copies config
  idle : ∀ key, ∀ entry ∈ pool.idle key, entry.Copies config

namespace CfPool.Copies

variable {config : Config} {width : PointerWidth} {pool next : CfPool}

theorem start : Copies config CfPool.start where
  clients _ hmem := (List.not_mem_nil hmem).elim
  refills _ hmem := (List.not_mem_nil hmem).elim
  idle _ _ hmem := (List.not_mem_nil hmem).elim

/-- A target is made from an entry, which has copied the switches, or from the
configuration itself. -/
theorem turns (hpool : Copies config pool) {client : CfClient} (hclient : client ∈ pool.clients)
    {phase : CfPhase} (hturns : client.Turns config width pool phase) : phase.Copies config := by
  cases hturns with
  | same => exact hpool.clients client hclient
  | pooled hentry => exact hpool.idle client.key _ hentry
  | described hphase => exact ⟨rfl, rfl⟩
  | rotated | missed | firstRecord | nextRecord | recordAfterTimeout | firstWorker | nextWorker
  | recordConnected | workerConnected => trivial

theorem step (hpool : Copies config pool) {label : CfLabel}
    (hmoves : CfMoves config width pool label next) :
    Copies config next := by
  have hdescends := Descends.of_moves hmoves
  refine ⟨?_, ?_, ?_⟩
  · intro client hclient
    rcases hdescends.clients client hclient with hphase | ⟨earlier, hearlier, phase, rfl, hturns⟩
    · rw [hphase]
      trivial
    · exact hpool.turns hearlier hturns
  · intro task htask
    rcases hdescends.refills task htask with ⟨earlier, hearlier, hsame⟩ | ⟨client, hclient, hphase⟩
    · rw [← hsame]
      exact hpool.refills earlier hearlier
    · have hcopies := hpool.clients client hclient
      rw [hphase] at hcopies
      exact hcopies
  · intro key entry hentry
    rcases hdescends.idle key entry hentry with hentry | ⟨task, htask, ws, now, -, rfl⟩
    · exact hpool.idle key entry hentry
    · exact hpool.refills task htask

end CfPool.Copies

end TgWsProxy.Pool
