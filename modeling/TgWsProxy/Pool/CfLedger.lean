import TgWsProxy.Foundation.Reservation
import TgWsProxy.Pool.Cloudflare

/-!
# What clients do to the Cloudflare pool

Most steps of a client only move it along its own walk. The ledger keeps what the
other tasks can see: the buckets, the refill tasks, their dials and the connections
handed out. Every step of the pool is a move of the ledger.
-/

namespace TgWsProxy.Pool

open Foundation.Machine Foundation.Reservation Foundation.Transition TgWsProxy.Cloudflare

/-- Neither too old at `now` nor found readable by the liveness check. -/
def Usable (maxAge now : Nat) (closed : Nat → Bool) (ws created : Nat) : Prop :=
  now - created ≤ maxAge ∧ closed ws = false

/-- The first usable entry of a bucket is taken, and those above it are dropped. -/
def TakesFirst {Entry : Type} (usable : Entry → Prop) (bucket rest : List Entry)
    (taken : Option Entry) : Prop :=
  ∃ gone, bucket = gone ++ (taken.toList ++ rest) ∧ (∀ entry ∈ gone, ¬ usable entry) ∧
    (∀ entry, taken = some entry → usable entry) ∧ (taken = none → rest = [])

namespace TakesFirst

variable {Entry : Type} {usable : Entry → Prop}

theorem nil : TakesFirst usable [] [] none := by
  refine ⟨[], rfl, ?_, ?_, fun _ => rfl⟩
  · intro entry hentry
    cases hentry
  · intro entry hentry
    cases hentry

theorem here {head : Entry} (husable : usable head) (tail : List Entry) :
    TakesFirst usable (head :: tail) tail (some head) := by
  refine ⟨[], rfl, ?_, ?_, ?_⟩
  · intro entry hentry
    cases hentry
  · rintro entry ⟨⟩
    exact husable
  · intro hnone
    cases hnone

theorem skip {head : Entry} (hunusable : ¬ usable head) {tail rest : List Entry}
    {taken : Option Entry} (htail : TakesFirst usable tail rest taken) :
    TakesFirst usable (head :: tail) rest taken := by
  obtain ⟨gone, hsplit, hgone, htaken, hnone⟩ := htail
  refine ⟨head :: gone, by rw [hsplit, List.cons_append], ?_, htaken, hnone⟩
  intro entry hentry
  rcases List.mem_cons.mp hentry with rfl | hentry
  · exact hunusable
  · exact hgone entry hentry

/-- What is taken and what is left were in the bucket. -/
theorem mem {bucket rest : List Entry} {taken : Option Entry}
    (htakes : TakesFirst usable bucket rest taken) :
    (∀ entry, taken = some entry → entry ∈ bucket) ∧ ∀ entry ∈ rest, entry ∈ bucket := by
  obtain ⟨gone, rfl, -⟩ := htakes
  constructor
  · rintro entry rfl
    exact List.mem_append_right gone (List.mem_append_left rest List.mem_cons_self)
  · intro entry hentry
    exact List.mem_append_right gone (List.mem_append_right _ hentry)

end TakesFirst

theorem takeFreshCf_takesFirst {maxAge now : Nat} {closed : Nat → Bool}
    {bucket rest : List CfEntry} {taken : Option CfEntry}
    (htake : takeFreshCf maxAge now closed bucket = (taken, rest)) :
    TakesFirst (fun entry : CfEntry => Usable maxAge now closed entry.ws entry.created)
      bucket rest taken := by
  induction bucket with
  | nil =>
      cases htake
      exact .nil
  | cons head tail ih =>
      unfold takeFreshCf at htake
      split at htake
      next hstale =>
        refine .skip ?_ (ih htake)
        rintro ⟨hage, hopen⟩
        rcases hstale with hold | hclosed
        · exact Nat.not_lt.mpr hage hold
        · rw [hopen] at hclosed
          cases hclosed
      next hfresh =>
        cases htake
        rw [not_or] at hfresh
        exact .here ⟨Nat.le_of_not_lt hfresh.1, by simpa using hfresh.2⟩ _

/-! ## The ledger -/

structure CfLedger where
  idle : CfKey → List CfEntry
  refilling : CfKey → Bool
  refills : List CfRefillTask
  dials : List CfDial
  served : List (CfKey × String × Nat)
  nextWs : Nat

def CfPool.ledger (pool : CfPool) : CfLedger where
  idle := pool.idle
  refilling := pool.refilling
  refills := pool.refills
  dials := pool.dials
  served := pool.served
  nextWs := pool.nextWs

def CfLedger.setRefill (ledger : CfLedger) (index : Nat) (task : CfRefillTask)
    (phase : CfRefillPhase) : CfLedger :=
  { ledger with refills := ledger.refills.set index { task with phase } }

inductive CfLedgerMoves (config : Config) (ledger : CfLedger) : CfLedger → Prop
  | quiet : CfLedgerMoves config ledger ledger
  | inline (key : CfKey) (name : String) :
      CfLedgerMoves config ledger
        { ledger with
          served := (key, name, ledger.nextWs) :: ledger.served
          nextWs := ledger.nextWs + 1 }
  | hit (key : CfKey) {now : Nat} {closed : Nat → Bool} {gone rest : List CfEntry}
      {entry : CfEntry} (hbucket : ledger.idle key = gone ++ entry :: rest)
      (hgone : ∀ other ∈ gone, ¬ Usable config.poolMaxAge now closed other.ws other.created)
      (hentry : Usable config.poolMaxAge now closed entry.ws entry.created) :
      CfLedgerMoves config ledger
        { ledger with
          idle := setCfBucket ledger.idle key rest
          served := (key, entry.domain, entry.ws) :: ledger.served }
  | miss (key : CfKey) :
      CfLedgerMoves config ledger { ledger with idle := setCfBucket ledger.idle key [] }
  | spawn (target : CfTarget) (hsize : config.poolSize ≠ 0)
      (hfree : ¬ ledger.refilling target.key = true) :
      CfLedgerMoves config ledger
        { ledger with
          refilling := reserve ledger.refilling target.key
          refills := ledger.refills ++ [⟨target, .reserved⟩] }
  | measuredFull {index : Nat} {task : CfRefillTask} (htask : ledger.refills[index]? = some task)
      (hphase : task.phase = .reserved)
      (hfull : cfBudget config ≤ (ledger.idle task.target.key).length) :
      CfLedgerMoves config ledger (ledger.setRefill index task .releasing)
  | measuredRoom {index : Nat} {task : CfRefillTask} (htask : ledger.refills[index]? = some task)
      (hphase : task.phase = .reserved)
      (hroom : (ledger.idle task.target.key).length < cfBudget config) :
      CfLedgerMoves config ledger
        { ledger.setRefill index task .dialing with
          dials := cfConnectOne task.target :: ledger.dials }
  | connected {index : Nat} {task : CfRefillTask} (htask : ledger.refills[index]? = some task)
      (hphase : task.phase = .dialing) :
      CfLedgerMoves config ledger
        { ledger.setRefill index task (.dialed ledger.nextWs) with nextWs := ledger.nextWs + 1 }
  | failed {index : Nat} {task : CfRefillTask} (htask : ledger.refills[index]? = some task)
      (hphase : task.phase = .dialing) :
      CfLedgerMoves config ledger (ledger.setRefill index task .releasing)
  | stored {index ws now : Nat} {task : CfRefillTask}
      (htask : ledger.refills[index]? = some task) (hphase : task.phase = .dialed ws)
      (hroom : (ledger.idle task.target.key).length < cfBudget config) :
      CfLedgerMoves config ledger
        { ledger.setRefill index task .releasing with
          idle := setCfBucket ledger.idle task.target.key
            (task.target.entry ws now :: ledger.idle task.target.key) }
  | surplus {index ws : Nat} {task : CfRefillTask} (htask : ledger.refills[index]? = some task)
      (hphase : task.phase = .dialed ws)
      (hfull : cfBudget config ≤ (ledger.idle task.target.key).length) :
      CfLedgerMoves config ledger (ledger.setRefill index task .releasing)
  | released {index : Nat} {task : CfRefillTask} (htask : ledger.refills[index]? = some task)
      (hphase : task.phase = .releasing) :
      CfLedgerMoves config ledger
        { ledger with
          refilling := release ledger.refilling task.target.key
          refills := ledger.refills.eraseIdx index }

/-- No refill task runs and none has dialled. -/
def CfLedger.Dormant (ledger : CfLedger) : Prop := ledger.refills = [] ∧ ledger.dials = []

theorem CfLedger.Dormant.step {config : Config} {ledger next : CfLedger}
    (hsize : config.poolSize = 0) (hledger : ledger.Dormant)
    (hmoves : CfLedgerMoves config ledger next) : next.Dormant := by
  have hnone : ∀ {index : Nat} {task : CfRefillTask}, ledger.refills[index]? ≠ some task := by
    intro index task htask
    rw [hledger.1] at htask
    cases htask
  cases hmoves with
  | quiet => exact hledger
  | inline key name => exact hledger
  | hit key hbucket hgone hentry => exact hledger
  | miss key => exact hledger
  | spawn target hpositive hfree => exact (hpositive hsize).elim
  | measuredFull htask hphase hfull => exact (hnone htask).elim
  | measuredRoom htask hphase hroom => exact (hnone htask).elim
  | connected htask hphase => exact (hnone htask).elim
  | failed htask hphase => exact (hnone htask).elim
  | stored htask hphase hroom => exact (hnone htask).elim
  | surplus htask hphase hfull => exact (hnone htask).elim
  | released htask hphase => exact (hnone htask).elim

/-! ## Clients on the ledger -/

section Clients

variable {config : Config} {width : PointerWidth} {pool : CfPool} {index : Nat}
  {client : CfClient}

theorem walkRecords_ledger (pool : CfPool) (attempts : CfAttempts) :
    (walkRecords pool index client attempts).ledger = pool.ledger := by
  unfold walkRecords
  split <;> rfl

theorem walkWorkers_ledger (pool : CfPool) (domains : List String) :
    (walkWorkers pool index client domains).ledger = pool.ledger := by
  cases domains <;> rfl

theorem cfGet_ledger (now : Nat) (closed : Nat → Bool) {onMiss : CfPool → CfPool}
    (hmiss : ∀ other : CfPool, (onMiss other).ledger = other.ledger) :
    CfLedgerMoves config pool.ledger
      (cfGet config pool index client now closed onMiss).ledger := by
  unfold cfGet
  split
  next taken rest htake =>
    obtain ⟨gone, hbucket, hgone, htaken, hnone⟩ := takeFreshCf_takesFirst htake
    cases taken with
    | none =>
        change CfLedgerMoves config pool.ledger (onMiss _).ledger
        rw [hmiss, hnone rfl]
        exact .miss client.key
    | some entry => exact .hit client.key hbucket hgone (htaken entry rfl)

theorem cfPrefetch_ledger (target : CfTarget) :
    CfLedgerMoves config pool.ledger ((cfPrefetch config pool target).dropClient index).ledger := by
  unfold cfPrefetch
  split
  next => exact .quiet
  next hspawn =>
    rw [not_or] at hspawn
    exact .spawn target hspawn.1 hspawn.2

theorem rotate_ledger (pool : CfPool) (tier : CfTier) :
    (rotate config width pool tier).2.ledger = pool.ledger := by
  cases tier <;> rfl

theorem cfTarget_ledger (pool : CfPool) (client : CfClient) (domain : String) :
    (cfTarget config width pool client domain).2.ledger = pool.ledger := by
  unfold cfTarget
  cases config.cfBalance with
  | false => rfl
  | true => exact rotate_ledger pool client.tier

theorem arrive_ledger (pool : CfPool) (tier : CfTier) (dc : Nat) (isMedia : Bool) (dst : String) :
    (arrive config pool tier dc isMedia dst).ledger = pool.ledger := by
  unfold arrive
  split <;> rfl

/-- A client that only moves on leaves the ledger as it is. -/
theorem CfLedgerMoves.of_eq {next : CfPool} (hledger : next.ledger = pool.ledger) :
    CfLedgerMoves config pool.ledger next.ledger := by
  rw [hledger]
  exact .quiet

end Clients

/-! ## Steps -/

/-- Every step of the pool is a move of the ledger. -/
theorem cfStep_ledger {config : Config} {width : PointerWidth} {pool next : CfPool}
    {label : CfLabel} (hstep : cfStep config width pool label = some next) :
    CfLedgerMoves config pool.ledger next.ledger := by
  cases cfStep_moves hstep with
  | arrive tier dc isMedia dst => exact .of_eq (arrive_ledger pool tier dc isMedia dst)
  | rotateProxy hclient hphase => exact .of_eq (@rotate_ledger config width pool .proxy)
  | rotateWorker hclient htier hphase =>
      exact .of_eq ((walkWorkers_ledger _ _).trans (rotate_ledger pool .worker))
  | getProxy hclient hphase => exact cfGet_ledger _ _ fun other => walkRecords_ledger other _
  | getWorker hclient hphase => exact cfGet_ledger _ _ fun _ => rfl
  | @dialRecord index client record attempts result hclient hphase =>
      cases result with
      | connected ws => exact .inline client.key record
      | redirect | failed | timedOut | connectTimedOut => exact .of_eq (walkRecords_ledger pool _)
  | @dialWorker index client domain rest result hclient hphase =>
      cases result with
      | connected ws => exact .inline client.key domain
      | redirect | failed | timedOut | connectTimedOut =>
          exact .of_eq (walkWorkers_ledger pool rest)
  | @skipCooling index client domain rest hclient hphase =>
      exact .of_eq (walkWorkers_ledger pool rest)
  | @describe index client domain hclient hphase =>
      exact .of_eq (cfTarget_ledger pool client domain)
  | prefetch hclient hphase => exact cfPrefetch_ledger _
  | @refillMeasure index task htask hphase =>
      unfold cfRefillMeasure
      split
      next hfull => exact .measuredFull htask hphase hfull
      next hroom => exact .measuredRoom htask hphase (Nat.lt_of_not_le hroom)
  | refillConnected htask hphase => exact .connected htask hphase
  | refillFailed htask hphase => exact .failed htask hphase
  | @refillStore index ws now task htask hphase =>
      unfold cfRefillStore
      simp only
      split
      next hroom => exact .stored htask hphase hroom
      next hfull => exact .surplus htask hphase (Nat.le_of_not_lt hfull)
  | refillRelease htask hphase => exact .released htask hphase

/-- An invariant of the ledger holds in every state of the pool. -/
theorem CfLedger.invariant {config : Config} {width : PointerWidth} (property : CfLedger → Prop)
    (hstart : property CfPool.start.ledger)
    (hmoves : ∀ ledger next, CfLedgerMoves config ledger next → property ledger → property next)
    {labels : List CfLabel} {pool : CfPool} (hvisits : (cfSystem config width).Visits labels pool) :
    property pool.ledger :=
  System.Visits.invariant (cfSystem config width) hstart
    (fun _ _ _ hstep hstate => hmoves _ _ (cfStep_ledger hstep) hstate) hvisits

end TgWsProxy.Pool
