import TgWsProxy.Foundation.Voucher
import TgWsProxy.Pool.Cloudflare

/-!
# What pays for a background dial

A client that obtained a connection of a Cloudflare tier asks for one spare: it hands its
claim to the refill task it spawns, and the task uses it up when it starts to dial. The
record kept here follows each claim from the connection that it began with, so that every
background dial can be traced to the connection that caused it.
-/

namespace TgWsProxy.Pool

open Foundation.Machine Foundation.Reservation Foundation.Transition Foundation.Voucher
open TgWsProxy.Cloudflare

/-! ## The record -/

/-- For each client, each refill task and each dial, which of the obtained connections it goes
back to. Connections are numbered as they were obtained. -/
structure CfVouchers where
  clients : List (Option Nat)
  refills : List (Option Nat)
  /-- Latest first, as the dials are. -/
  dials : List Nat

namespace CfVouchers

def start : CfVouchers := ⟨[], [], []⟩

/-- A client on its way: it may leave the tier, or obtain a connection. -/
def passClient (pool : CfPool) (index : Nat) (next : CfPool) (vouchers : CfVouchers) :
    CfVouchers :=
  if next.clients.length < pool.clients.length then
    { vouchers with clients := vouchers.clients.eraseIdx index }
  else if pool.served.length < next.served.length then
    { vouchers with clients := vouchers.clients.set index (some pool.served.length) }
  else vouchers

/-- Who holds what after a step of the pool. -/
def pass (pool : CfPool) (label : CfLabel) (next : CfPool) (vouchers : CfVouchers) : CfVouchers :=
  match label with
  | .arrive _ _ _ _ =>
      if pool.clients.length < next.clients.length then
        { vouchers with clients := vouchers.clients ++ [none] }
      else vouchers
  | .rotate index | .get index _ _ | .dial index _ | .skipCooling index | .describe index =>
      vouchers.passClient pool index next
  | .prefetch index =>
      -- The claim of the client passes to the task, if there is a new one.
      { vouchers with
        clients := vouchers.clients.eraseIdx index
        refills :=
          if pool.refills.length < next.refills.length then
            vouchers.refills ++ [(vouchers.clients[index]?).join]
          else vouchers.refills }
  | .refillMeasure index =>
      -- The claim of the task passes to the dial, if there is one.
      { vouchers with
        refills := vouchers.refills.set index none
        dials :=
          if pool.dials.length < next.dials.length then
            (vouchers.refills[index]?).join.toList ++ vouchers.dials
          else vouchers.dials }
  | .refillDial _ _ | .refillStore _ _ => vouchers
  | .refillRelease index => { vouchers with refills := vouchers.refills.eraseIdx index }

end CfVouchers

/-- The pool with the record beside it. -/
def voucherSystem (config : Config) (width : PointerWidth) :
    System (CfPool × CfVouchers) CfLabel :=
  (cfSystem config width).recording CfVouchers.pass .start

/-! ## What a client may do to it -/

/-- The key for which a client with a connection has yet to ask for the spare. -/
def CfClient.owes (client : CfClient) : Option CfKey :=
  match client.phase with
  | .connected _ => some client.key
  | .prefetching target => some target.key
  | _ => none

/-- The key for which a task has yet to decide whether to dial. -/
def CfRefillTask.awaits (task : CfRefillTask) : Option CfKey :=
  if task.phase = .reserved then some task.target.key else none

/-- The keys of the connections that were obtained, by their numbers. -/
def CfPool.grants (pool : CfPool) : List CfKey := pool.served.reverse.map Prod.fst

theorem CfPool.countP_grants (pool : CfPool) (key : CfKey) :
    pool.grants.countP (fun grant => grant = key) =
      pool.served.countP fun connection => connection.1 = key := by
  rw [CfPool.grants, List.countP_map, List.countP_reverse]
  rfl

/-- What the step of a client does to its claim. -/
inductive Advances (pool : CfPool) (index : Nat) (client : CfClient) (next : CfPool) : Prop
  | walks (phase : CfPhase) (hclients : next.clients = pool.clients.set index { client with phase })
      (howes : ({ client with phase } : CfClient).owes = client.owes)
      (hserved : next.served = pool.served)
  | leaves (hclients : next.clients = pool.clients.eraseIdx index) (howes : client.owes = none)
      (hserved : next.served = pool.served)
  | obtains (phase : CfPhase) (name : String) (ws : Nat)
      (hclients : next.clients = pool.clients.set index { client with phase })
      (hbefore : client.owes = none)
      (hafter : ({ client with phase } : CfClient).owes = some client.key)
      (hserved : next.served = (client.key, name, ws) :: pool.served)

/-- The refill tasks and their dials are left alone. -/
def CfPool.SameRefills (pool next : CfPool) : Prop :=
  next.refills = pool.refills ∧ next.dials = pool.dials

/-- Nobody moves and nothing is obtained: a counter or a bucket may have changed. -/
structure CfPool.Still (pool next : CfPool) : Prop where
  clients : next.clients = pool.clients
  served : next.served = pool.served
  refills : pool.SameRefills next

section Clients

variable {config : Config} {width : PointerWidth} {pool other : CfPool} {index : Nat}
  {client : CfClient}

theorem still_rotate (pool : CfPool) (tier : CfTier) :
    pool.Still (rotate config width pool tier).2 := by
  cases tier <;> exact ⟨rfl, rfl, rfl, rfl⟩

theorem still_cfTarget (pool : CfPool) (client : CfClient) (domain : String) :
    pool.Still (cfTarget config width pool client domain).2 := by
  unfold cfTarget
  cases config.cfBalance with
  | false => exact ⟨rfl, rfl, rfl, rfl⟩
  | true => exact still_rotate pool client.tier

theorem setClient_advances (hstill : pool.Still other) (phase : CfPhase)
    (howes : ({ client with phase } : CfClient).owes = client.owes) :
    Advances pool index client (other.setClient index client phase) ∧
      pool.SameRefills (other.setClient index client phase) := by
  refine ⟨.walks phase ?_ howes hstill.served, hstill.refills⟩
  rw [CfPool.setClient, hstill.clients]

theorem dropClient_advances (hstill : pool.Still other) (howes : client.owes = none) :
    Advances pool index client (other.dropClient index) ∧
      pool.SameRefills (other.dropClient index) := by
  refine ⟨.leaves ?_ howes hstill.served, hstill.refills⟩
  rw [CfPool.dropClient, hstill.clients]

theorem walkRecords_advances (hstill : pool.Still other) (howes : client.owes = none)
    (attempts : CfAttempts) :
    Advances pool index client (walkRecords other index client attempts) ∧
      pool.SameRefills (walkRecords other index client attempts) := by
  unfold walkRecords
  split
  next record rest _ => exact setClient_advances hstill (.walkingRecords record rest) howes.symm
  next => exact dropClient_advances hstill howes

theorem walkWorkers_advances (hstill : pool.Still other) (howes : client.owes = none)
    (domains : List String) :
    Advances pool index client (walkWorkers other index client domains) ∧
      pool.SameRefills (walkWorkers other index client domains) := by
  cases domains with
  | nil => exact dropClient_advances hstill howes
  | cons domain rest => exact setClient_advances hstill (.walkingWorkers domain rest) howes.symm

theorem inlineConnected_advances (howes : client.owes = none) (domain : String) :
    Advances pool index client (inlineConnected pool index client domain) ∧
      pool.SameRefills (inlineConnected pool index client domain) :=
  ⟨.obtains (.connected domain) domain pool.nextWs rfl howes rfl rfl, rfl, rfl⟩

theorem cfGet_advances (howes : client.owes = none) (now : Nat) (closed : Nat → Bool)
    {onMiss : CfPool → CfPool}
    (hmiss : ∀ other : CfPool, pool.Still other →
      Advances pool index client (onMiss other) ∧ pool.SameRefills (onMiss other)) :
    Advances pool index client (cfGet config pool index client now closed onMiss) ∧
      pool.SameRefills (cfGet config pool index client now closed onMiss) := by
  unfold cfGet
  split
  next taken rest _ =>
    cases taken with
    | none => exact hmiss _ ⟨rfl, rfl, rfl, rfl⟩
    | some entry =>
        refine ⟨?_, rfl, rfl⟩
        exact .obtains (.prefetching (entry.target client)) entry.domain entry.ws rfl howes rfl rfl

end Clients

/-! ## The record is sound -/

/-- Every claim goes back to an obtained connection of its key, and no two go back to the same
one. -/
structure CfVouchers.Sound (pool : CfPool) (vouchers : CfVouchers) : Prop where
  clients : Held pool.grants vouchers.clients (pool.clients.map CfClient.owes)
  refills : Held pool.grants vouchers.refills (pool.refills.map CfRefillTask.awaits)
  dials : Spent CfDial.key pool.grants vouchers.dials pool.dials
  once : ∀ number, tally number vouchers.clients + tally number vouchers.refills +
    vouchers.dials.count number ≤ 1

namespace CfVouchers.Sound

variable {config : Config} {width : PointerWidth} {pool next : CfPool} {vouchers : CfVouchers}
  {index : Nat}

theorem length_grants (pool : CfPool) : pool.grants.length = pool.served.length := by
  rw [CfPool.grants, List.length_map, List.length_reverse]

theorem grants_of_served {key : CfKey} {name : String} {ws : Nat}
    (hserved : next.served = (key, name, ws) :: pool.served) :
    next.grants = pool.grants ++ [key] := by
  rw [CfPool.grants, hserved, List.reverse_cons, List.map_append]
  rfl

theorem grants_eq (hserved : next.served = pool.served) : next.grants = pool.grants := by
  rw [CfPool.grants, hserved, CfPool.grants]

theorem nodup_dials (hsound : Sound pool vouchers) : vouchers.dials.Nodup := by
  rw [List.nodup_iff_count_le_one]
  intro number
  exact Nat.le_of_add_left_le (hsound.once number)

theorem start : Sound CfPool.start .start := ⟨.nil, .nil, .nil, fun _ => Nat.zero_le 1⟩

/-- The voucher behind the claim of a client. -/
theorem client_voucher (hsound : Sound pool vouchers) {client : CfClient}
    (hclient : pool.clients[index]? = some client) :
    ∃ voucher, vouchers.clients[index]? = some voucher ∧
      Backs pool.grants voucher client.owes := by
  apply hsound.clients.voucher_of_claim
  rw [List.getElem?_map, hclient]
  rfl

theorem refill_voucher (hsound : Sound pool vouchers) {task : CfRefillTask}
    (htask : pool.refills[index]? = some task) :
    ∃ voucher, vouchers.refills[index]? = some voucher ∧
      Backs pool.grants voucher task.awaits := by
  apply hsound.refills.voucher_of_claim
  rw [List.getElem?_map, htask]
  rfl

/-! ### Clients -/

/-- The claims of the clients change hands, and none is made. -/
theorem replaceClients (hsound : Sound pool vouchers) {clients : List (Option Nat)}
    (hserved : next.served = pool.served) (hsame : pool.SameRefills next)
    (hheld : Held pool.grants clients (next.clients.map CfClient.owes))
    (hle : ∀ number, tally number clients ≤ tally number vouchers.clients) :
    Sound next { vouchers with clients } := by
  rw [← grants_eq hserved] at hheld
  refine ⟨hheld, ?_, ?_, fun number => ?_⟩
  · rw [grants_eq hserved, hsame.1]
    exact hsound.refills
  · rw [grants_eq hserved, hsame.2]
    exact hsound.dials
  · have hall := hsound.once number
    have hnumber := hle number
    change tally number clients + tally number vouchers.refills + vouchers.dials.count number ≤ 1
    omega

theorem leave (hsound : Sound pool vouchers) {client : CfClient}
    (hclient : pool.clients[index]? = some client)
    (hclients : next.clients = pool.clients.eraseIdx index) (hserved : next.served = pool.served)
    (hsame : pool.SameRefills next) :
    Sound next { vouchers with clients := vouchers.clients.eraseIdx index } := by
  obtain ⟨voucher, hvoucher, -⟩ := hsound.client_voucher hclient
  refine hsound.replaceClients hserved hsame ?_ fun number =>
    Nat.le.intro (tally_eraseIdx number hvoucher)
  rw [hclients, ← List.eraseIdx_map]
  exact hsound.clients.eraseIdx index

/-- The connection that a client obtains gets a number that nothing goes back to yet. -/
theorem obtain_connection (hsound : Sound pool vouchers) {client : CfClient} {phase : CfPhase}
    {name : String} {ws : Nat} (hclient : pool.clients[index]? = some client)
    (hclients : next.clients = pool.clients.set index { client with phase })
    (hbefore : client.owes = none)
    (hafter : ({ client with phase } : CfClient).owes = some client.key)
    (hserved : next.served = (client.key, name, ws) :: pool.served)
    (hsame : pool.SameRefills next) :
    Sound next
      { vouchers with clients := vouchers.clients.set index (some pool.served.length) } := by
  have hgrants := grants_of_served hserved
  refine ⟨?_, ?_, ?_, fun number => ?_⟩
  · rw [hgrants, hclients, List.map_set, hafter, ← length_grants]
    exact (hsound.clients.grow client.key).set index (.latest pool.grants client.key)
  · rw [hgrants, hsame.1]
    exact hsound.refills.grow client.key
  · rw [hgrants, hsame.2]
    exact hsound.dials.grow client.key
  · obtain ⟨voucher, hvoucher, hbacks⟩ := hsound.client_voucher hclient
    rw [hbefore] at hbacks
    rw [hbacks.of_none] at hvoucher
    have hset := tally_set number hvoucher (some pool.served.length)
    have hall := hsound.once number
    change tally number (vouchers.clients.set index (some pool.served.length)) +
      tally number vouchers.refills + vouchers.dials.count number ≤ 1
    by_cases hnumber : pool.served.length = number
    · rw [← hnumber, ← length_grants] at hset ⊢
      have hclientsFresh := hsound.clients.tally_fresh
      have hrefillsFresh := hsound.refills.tally_fresh
      have hdialsFresh := hsound.dials.count_fresh
      simp only [reduceCtorEq, if_false, if_true] at hset
      omega
    · simp only [reduceCtorEq, if_false, Option.some_inj, hnumber] at hset
      omega

/-- A client makes a step of its walk. -/
theorem advance (hsound : Sound pool vouchers) {client : CfClient}
    (hclient : pool.clients[index]? = some client)
    (hstep : Advances pool index client next ∧ pool.SameRefills next) :
    Sound next (vouchers.passClient pool index next) := by
  obtain ⟨hadvances, hsame⟩ := hstep
  unfold passClient
  cases hadvances with
  | walks phase hclients howes hserved =>
      rw [if_neg (by simp [hclients]), if_neg (by simp [hserved])]
      refine hsound.replaceClients hserved hsame ?_ fun number => Nat.le_refl _
      rw [hclients, map_set_of_key hclient howes]
      exact hsound.clients
  | leaves hclients howes hserved =>
      have hlt := (List.getElem?_eq_some_iff.mp hclient).1
      have hlength : next.clients.length < pool.clients.length := by
        rw [hclients, List.length_eraseIdx_of_lt hlt]
        omega
      rw [if_pos hlength]
      exact hsound.leave hclient hclients hserved hsame
  | obtains phase name ws hclients hbefore hafter hserved =>
      rw [if_neg (by simp [hclients]), if_pos (by simp [hserved])]
      exact hsound.obtain_connection hclient hclients hbefore hafter hserved hsame

theorem arrive (hsound : Sound pool vouchers) (tier : CfTier) (dc : Nat) (isMedia : Bool)
    (dst : String) :
    Sound (Pool.arrive config pool tier dc isMedia dst)
      (vouchers.pass pool (.arrive tier dc isMedia dst)
        (Pool.arrive config pool tier dc isMedia dst)) := by
  unfold pass Pool.arrive
  simp only
  split
  next =>
    rw [if_neg (Nat.lt_irrefl _)]
    exact hsound
  next =>
    rw [if_pos (by simp)]
    refine hsound.replaceClients rfl ⟨rfl, rfl⟩ ?_ fun number => (tally_concat number _ none).le
    rw [List.map_append]
    exact hsound.clients.concat .none

/-- A client hands its claim to the task that it spawns, or gives it up. -/
theorem prefetch (hsound : Sound pool vouchers) {client : CfClient} {target : CfTarget}
    (hclient : pool.clients[index]? = some client) (hphase : client.phase = .prefetching target) :
    Sound ((cfPrefetch config pool target).dropClient index)
      (vouchers.pass pool (.prefetch index)
        ((cfPrefetch config pool target).dropClient index)) := by
  unfold pass cfPrefetch
  simp only
  split
  next =>
    rw [if_neg (by simp [CfPool.dropClient])]
    exact hsound.leave hclient rfl rfl ⟨rfl, rfl⟩
  next =>
    rw [if_pos (by simp [CfPool.dropClient])]
    obtain ⟨voucher, hvoucher, hbacks⟩ := hsound.client_voucher hclient
    have howes : client.owes = some target.key := by simp [CfClient.owes, hphase]
    rw [howes] at hbacks
    rw [hvoucher]
    refine ⟨?_, ?_, hsound.dials, fun number => ?_⟩
    · change Held pool.grants _ ((pool.clients.eraseIdx index).map CfClient.owes)
      rw [← List.eraseIdx_map]
      exact hsound.clients.eraseIdx index
    · change Held pool.grants _ (List.map CfRefillTask.awaits (pool.refills ++ [⟨target, _⟩]))
      rw [List.map_append]
      exact hsound.refills.concat hbacks
    · have hall := hsound.once number
      have herase := tally_eraseIdx number hvoucher
      have hpassed := tally_concat number vouchers.refills voucher
      change tally number (vouchers.clients.eraseIdx index) +
        tally number (vouchers.refills ++ [voucher]) + vouchers.dials.count number ≤ 1
      omega

/-! ### Refill tasks -/

/-- The claims of the tasks change hands, and none is made. -/
theorem replaceRefills (hsound : Sound pool vouchers) {refills : List (Option Nat)}
    (hclients : next.clients = pool.clients) (hserved : next.served = pool.served)
    (hdials : next.dials = pool.dials)
    (hheld : Held pool.grants refills (next.refills.map CfRefillTask.awaits))
    (hle : ∀ number, tally number refills ≤ tally number vouchers.refills) :
    Sound next { vouchers with refills } := by
  rw [← grants_eq hserved] at hheld
  refine ⟨?_, hheld, ?_, fun number => ?_⟩
  · rw [grants_eq hserved, hclients]
    exact hsound.clients
  · rw [grants_eq hserved, hdials]
    exact hsound.dials
  · have hall := hsound.once number
    have hnumber := hle number
    change tally number vouchers.clients + tally number refills + vouchers.dials.count number ≤ 1
    omega

/-- A task moves on without touching its claim. -/
theorem setRefill (hsound : Sound pool vouchers) {task : CfRefillTask} {phase : CfRefillPhase}
    (htask : pool.refills[index]? = some task) (hbefore : task.awaits = none)
    (hafter : ({ task with phase } : CfRefillTask).awaits = none)
    (hclients : next.clients = pool.clients) (hserved : next.served = pool.served)
    (hdials : next.dials = pool.dials)
    (hrefills : next.refills = pool.refills.set index { task with phase }) :
    Sound next vouchers := by
  refine hsound.replaceRefills hclients hserved hdials ?_ fun number => Nat.le_refl _
  rw [hrefills, map_set_of_key htask (hafter.trans hbefore.symm)]
  exact hsound.refills

/-- The claim of a task turns into its dial, or is given up. -/
theorem measure (hsound : Sound pool vouchers) {task : CfRefillTask}
    (htask : pool.refills[index]? = some task) (hphase : task.phase = .reserved) :
    Sound (cfRefillMeasure config pool index task)
      (vouchers.pass pool (.refillMeasure index) (cfRefillMeasure config pool index task)) := by
  obtain ⟨voucher, hvoucher, hbacks⟩ := hsound.refill_voucher htask
  have hawaits : task.awaits = some task.target.key := by simp [CfRefillTask.awaits, hphase]
  rw [hawaits] at hbacks
  obtain ⟨number, rfl, hnumber⟩ := hbacks.of_claim
  have hrefills : ∀ phase : CfRefillPhase, phase ≠ .reserved →
      Held pool.grants (vouchers.refills.set index none)
        ((pool.refills.set index { task with phase }).map CfRefillTask.awaits) := by
    intro phase hnext
    have hnone : ({ task with phase } : CfRefillTask).awaits = none := by
      simp [CfRefillTask.awaits, hnext]
    rw [List.map_set, hnone]
    exact hsound.refills.set index .none
  have hset := fun other => tally_set other hvoucher none
  unfold pass cfRefillMeasure
  simp only
  split
  next =>
    rw [if_neg (by simp [CfPool.setRefill])]
    exact hsound.replaceRefills rfl rfl rfl (hrefills .releasing (by simp)) fun other =>
      Nat.le.intro (hset other)
  next =>
    rw [if_pos (by simp), hvoucher]
    refine ⟨hsound.clients, hrefills .dialing (by simp), .cons hnumber hsound.dials,
      fun other => ?_⟩
    have hall := hsound.once other
    have hother := hset other
    change tally other vouchers.clients + tally other (vouchers.refills.set index none) +
      (number :: vouchers.dials).count other ≤ 1
    rw [List.count_cons]
    simp only [reduceCtorEq, if_false, Option.some_inj] at hother
    simp only [beq_iff_eq]
    omega

theorem release (hsound : Sound pool vouchers) {task : CfRefillTask}
    (htask : pool.refills[index]? = some task) :
    Sound (cfRefillRelease pool index task)
      (vouchers.pass pool (.refillRelease index) (cfRefillRelease pool index task)) := by
  obtain ⟨voucher, hvoucher, -⟩ := hsound.refill_voucher htask
  refine hsound.replaceRefills rfl rfl rfl ?_ fun number =>
    Nat.le.intro (tally_eraseIdx number hvoucher)
  change Held pool.grants _ ((pool.refills.eraseIdx index).map CfRefillTask.awaits)
  rw [← List.eraseIdx_map]
  exact hsound.refills.eraseIdx index

/-! ### Runs -/

theorem step (hsound : Sound pool vouchers) {label : CfLabel}
    (hmoves : CfMoves config width pool label next) :
    Sound next (vouchers.pass pool label next) := by
  cases hmoves with
  | arrive tier dc isMedia dst => exact hsound.arrive tier dc isMedia dst
  | @rotateProxy index client hclient hphase =>
      have howes : client.owes = none := by simp [CfClient.owes, hphase]
      exact hsound.advance hclient
        (setClient_advances (still_rotate pool .proxy) (.rotated _) howes.symm)
  | @rotateWorker index client hclient htier hphase =>
      have howes : client.owes = none := by simp [CfClient.owes, hphase]
      exact hsound.advance hclient (walkWorkers_advances (still_rotate pool .worker) howes _)
  | @getProxy index now first client closed hclient hphase =>
      have howes : client.owes = none := by simp [CfClient.owes, hphase]
      exact hsound.advance hclient (cfGet_advances howes now closed
        fun other hstill => walkRecords_advances hstill howes _)
  | @getWorker index now client closed hclient hphase =>
      have howes : client.owes = none := by simp [CfClient.owes, hphase]
      exact hsound.advance hclient (cfGet_advances howes now closed
        fun other hstill => setClient_advances hstill .missed howes.symm)
  | @dialRecord index client record attempts result hclient hphase =>
      have howes : client.owes = none := by simp [CfClient.owes, hphase]
      cases result with
      | connected ws => exact hsound.advance hclient (inlineConnected_advances howes record)
      | redirect | failed | timedOut | connectTimedOut =>
          exact hsound.advance hclient (walkRecords_advances ⟨rfl, rfl, rfl, rfl⟩ howes _)
  | @dialWorker index client domain rest result hclient hphase =>
      have howes : client.owes = none := by simp [CfClient.owes, hphase]
      cases result with
      | connected ws => exact hsound.advance hclient (inlineConnected_advances howes domain)
      | redirect | failed | timedOut | connectTimedOut =>
          exact hsound.advance hclient (walkWorkers_advances ⟨rfl, rfl, rfl, rfl⟩ howes _)
  | @skipCooling index client domain rest hclient hphase =>
      have howes : client.owes = none := by simp [CfClient.owes, hphase]
      exact hsound.advance hclient (walkWorkers_advances ⟨rfl, rfl, rfl, rfl⟩ howes rest)
  | @describe index client domain hclient hphase =>
      have howes : client.owes = some client.key := by simp [CfClient.owes, hphase]
      refine hsound.advance hclient
        (setClient_advances (still_cfTarget pool client domain) (.prefetching _) ?_)
      rw [howes]
      rfl
  | prefetch hclient hphase => exact hsound.prefetch hclient hphase
  | refillMeasure htask hphase => exact hsound.measure htask hphase
  | refillConnected htask hphase =>
      exact hsound.setRefill htask (by simp [CfRefillTask.awaits, hphase]) rfl rfl rfl rfl rfl
  | refillFailed htask hphase =>
      exact hsound.setRefill htask (by simp [CfRefillTask.awaits, hphase]) rfl rfl rfl rfl rfl
  | @refillStore index ws now task htask hphase =>
      have hawaits : task.awaits = none := by simp [CfRefillTask.awaits, hphase]
      unfold cfRefillStore
      simp only
      split <;> exact hsound.setRefill htask hawaits rfl rfl rfl rfl rfl
  | refillRelease htask hphase => exact hsound.release htask

theorem visits {labels : List CfLabel}
    (hvisits : (voucherSystem config width).Visits labels (pool, vouchers)) :
    Sound pool vouchers := by
  refine @System.Visits.invariant _ _ (voucherSystem config width) labels
    (fun state => Sound state.1 state.2) start ?_ _ hvisits
  rintro ⟨pool, vouchers⟩ label next hstep hsound
  obtain ⟨pool', hpool, rfl⟩ := Option.map_eq_some_iff.mp hstep
  exact hsound.step (cfStep_moves hpool)

end CfVouchers.Sound

end TgWsProxy.Pool
