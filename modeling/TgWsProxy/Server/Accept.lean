import TgWsProxy.Pool.Budget
import TgWsProxy.Server.Limits

/-!
# The accept loop

The loop of `run_with_listen` takes a permit before each `accept` and gives it to the task
of the client, which returns it when it ends. A permit is kept while the loop backs off
after a failed `accept`. The clients and the pool run beside the loop, in any order.
-/

namespace TgWsProxy.Server

open Foundation.Machine Foundation.Transition
open Pool (CfKey CfPool DirectLabel PoolKey PoolLabel WsPool dcBuckets poolFds poolStep)

/-! ## Model -/

/-- Milliseconds before the next `accept` after one that failed with the given error. -/
def backOff (rawOsError : Option Nat) : Nat :=
  let emfile := 24
  let enfile := 23
  if rawOsError = some emfile ∨ rawOsError = some enfile then 500 else 50

/-- Where the loop waits; the permit of a turn is there from `accepting` on. -/
inductive Loop
  | acquiring
  | accepting
  | sleeping (millis : Nat)
  /-- The loop was left, for a shutdown or for the verdict of the check. -/
  | stopped (verdict : Option Bool)
  deriving DecidableEq, Repr

def Loop.held : Loop → Nat
  | .accepting | .sleeping _ => 1
  | .acquiring | .stopped _ => 0

/-- The task of a client, with or without a connection towards Telegram. -/
structure Client where
  outbound : Bool
  deriving DecidableEq, Repr

def Client.descriptors (client : Client) : Nat := 1 + client.outbound.toNat

structure State where
  loop : Loop
  /-- The permits of the semaphore that nobody holds. -/
  free : Nat
  clients : List Client
  pool : WsPool

inductive Label
  | acquire
  | accept
  | acceptFailed (rawOsError : Option Nat)
  | wake
  | shutdown
  | verdict (allOk : Bool)
  /-- A client dials, asks the direct pool, or gives up a connection. -/
  | dial (index : Nat)
  | get (index : Nat) (key : PoolKey) (targetIp : String) (allowRefill : Bool) (now : Nat)
      (closed : Nat → Bool)
  | disconnect (index : Nat)
  | finish (index : Nat)
  /-- A step of the pool on its own. -/
  | background (label : PoolLabel)

/-- Whether the pool takes a step without a client that takes a connection. -/
def isBackground : PoolLabel → Bool
  | .direct (.get ..) => false
  | _ => true

section System

variable (config : Config) (width : PointerWidth) (check : Bool)

def State.leave (state : State) (verdict : Option Bool) : Option State :=
  match state.loop with
  | .acquiring => some { state with loop := .stopped verdict }
  | .accepting => some { state with loop := .stopped verdict, free := state.free + 1 }
  | .sleeping _ | .stopped _ => none

def step (state : State) : Label → Option State
  | .acquire =>
      match state.loop, state.free with
      | .acquiring, free + 1 => some { state with loop := .accepting, free }
      | _, _ => none
  | .accept =>
      if state.loop = .accepting then
        some { state with loop := .acquiring, clients := state.clients ++ [⟨false⟩] }
      else none
  | .acceptFailed rawOsError =>
      if state.loop = .accepting then some { state with loop := .sleeping (backOff rawOsError) }
      else none
  | .wake =>
      match state.loop with
      | .sleeping _ => some { state with loop := .acquiring, free := state.free + 1 }
      | _ => none
  | .shutdown => state.leave none
  | .verdict allOk => if check then state.leave (some allOk) else none
  | .dial index =>
      match state.clients[index]? with
      | some ⟨false⟩ => some { state with clients := state.clients.set index ⟨true⟩ }
      | _ => none
  | .get index key targetIp allowRefill now closed =>
      match state.clients[index]? with
      | some ⟨false⟩ =>
          (poolStep config width state.pool
            (.direct (.get key targetIp allowRefill now closed))).map fun pool =>
              { state with pool, clients := state.clients.set index ⟨true⟩ }
      | _ => none
  | .disconnect index =>
      match state.clients[index]? with
      | some ⟨true⟩ => some { state with clients := state.clients.set index ⟨false⟩ }
      | _ => none
  | .finish index =>
      match state.clients[index]? with
      | some _ =>
          some { state with clients := state.clients.eraseIdx index, free := state.free + 1 }
      | none => none
  | .background label =>
      if isBackground label then
        (poolStep config width state.pool label).map fun pool => { state with pool }
      else none

/-- The loop with `max_connections` permits. -/
def serverSystem (maxConnections : Nat) : System State Label where
  start :=
    { loop := .acquiring, free := maxConnections, clients := []
      pool := (Pool.poolSystem config width).start }
  step := step config width check

end System

/-- The open sockets: the listener, those of the clients and those of the pool. -/
def State.descriptors (config : Config) (state : State) (keys : Finset PoolKey)
    (cfKeys : Finset CfKey) : Nat :=
  1 + (state.clients.map Client.descriptors).sum +
    (state.pool.direct.sockets config keys + state.pool.cf.sockets cfKeys)

/-! ## Permits -/

section Permits

variable {config : Config} {width : PointerWidth} {check : Bool} {state next : State}

/-- Every permit is free, held by the loop or held by a client. -/
def Accounted (maxConnections : Nat) (state : State) : Prop :=
  state.free + state.loop.held + state.clients.length = maxConnections

theorem Accounted.leave {maxConnections : Nat} {verdict : Option Bool}
    (haccounted : Accounted maxConnections state) (hleave : state.leave verdict = some next) :
    Accounted maxConnections next := by
  unfold State.leave at hleave
  unfold Accounted at haccounted ⊢
  split at hleave
  next hloop =>
    cases hleave
    rw [hloop] at haccounted
    exact haccounted
  next hloop =>
    cases hleave
    rw [hloop] at haccounted
    simp only [Loop.held] at haccounted ⊢
    omega
  next => cases hleave
  next => cases hleave

theorem Accounted.step {maxConnections : Nat} {label : Label}
    (haccounted : Accounted maxConnections state)
    (hstep : Server.step config width check state label = some next) :
    Accounted maxConnections next := by
  cases label with
  | acquire =>
      simp only [Server.step] at hstep
      split at hstep
      next free hloop hfree =>
        cases hstep
        unfold Accounted at haccounted ⊢
        rw [hloop, hfree] at haccounted
        simp only [Loop.held] at haccounted ⊢
        omega
      next => cases hstep
  | accept =>
      simp only [Server.step] at hstep
      split at hstep
      next hloop =>
        cases hstep
        unfold Accounted at haccounted ⊢
        rw [hloop] at haccounted
        simp only [Loop.held, List.length_append, List.length_singleton] at haccounted ⊢
        omega
      next => cases hstep
  | acceptFailed rawOsError =>
      simp only [Server.step] at hstep
      split at hstep
      next hloop =>
        cases hstep
        unfold Accounted at haccounted ⊢
        rw [hloop] at haccounted
        exact haccounted
      next => cases hstep
  | wake =>
      simp only [Server.step] at hstep
      split at hstep
      next millis hloop =>
        cases hstep
        unfold Accounted at haccounted ⊢
        rw [hloop] at haccounted
        simp only [Loop.held] at haccounted ⊢
        omega
      next => cases hstep
  | shutdown => exact haccounted.leave hstep
  | verdict allOk =>
      simp only [Server.step] at hstep
      split at hstep
      next => exact haccounted.leave hstep
      next => cases hstep
  | dial index | disconnect index =>
      simp only [Server.step] at hstep
      split at hstep
      next hclient =>
        cases hstep
        unfold Accounted at haccounted ⊢
        rw [List.length_set]
        exact haccounted
      next => cases hstep
  | get index key targetIp allowRefill now closed =>
      simp only [Server.step] at hstep
      split at hstep
      next hclient =>
        obtain ⟨pool, -, rfl⟩ := Option.map_eq_some_iff.mp hstep
        unfold Accounted at haccounted ⊢
        rw [List.length_set]
        exact haccounted
      next => cases hstep
  | finish index =>
      simp only [Server.step] at hstep
      split at hstep
      next client hclient =>
        cases hstep
        have hindex : index < state.clients.length := (List.getElem?_eq_some_iff.mp hclient).1
        unfold Accounted at haccounted ⊢
        change state.free + 1 + state.loop.held + (state.clients.eraseIdx index).length = _
        rw [List.length_eraseIdx_of_lt hindex]
        omega
      next => cases hstep
  | background label =>
      simp only [Server.step] at hstep
      split at hstep
      next =>
        obtain ⟨pool, -, rfl⟩ := Option.map_eq_some_iff.mp hstep
        exact haccounted
      next => cases hstep

theorem accounted_of_run {maxConnections : Nat} {labels : List Label}
    (hrun : (serverSystem config width check maxConnections).run labels = some state) :
    Accounted maxConnections state := by
  refine System.runFrom_invariant _ ?_ ?_ hrun
  · intro state label next hstep haccounted
    exact haccounted.step hstep
  · exact rfl

/-- With a permit the loop comes to its `accept`, and without one a client has to end first. -/
theorem exists_accepting {maxConnections : Nat} (haccounted : Accounted maxConnections state)
    (hmax : 0 < maxConnections) (hrunning : ∀ verdict, state.loop ≠ .stopped verdict) :
    ∃ steps accepting, steps.length ≤ 2 ∧
      (serverSystem config width check maxConnections).runFrom state steps = some accepting ∧
      accepting.loop = .accepting ∧
      ((∃ index, .finish index ∈ steps) → state.clients.length = maxConnections) := by
  unfold Accounted at haccounted
  cases hloop : state.loop with
  | stopped verdict => exact absurd hloop (hrunning verdict)
  | accepting => exact ⟨[], state, Nat.zero_le _, rfl, hloop, nofun⟩
  | sleeping millis =>
      refine ⟨[.wake, .acquire], { state with loop := .accepting }, Nat.le_refl _, ?_, rfl, ?_⟩
      · simp [System.runFrom, serverSystem, Server.step, hloop]
      · simp
  | acquiring =>
      rw [hloop] at haccounted
      cases hfree : state.free with
      | succ free =>
          refine ⟨[.acquire], { state with loop := .accepting, free }, by simp, ?_, rfl, by simp⟩
          simp [System.runFrom, serverSystem, Server.step, hloop, hfree]
      | zero =>
          rw [hfree] at haccounted
          simp only [Loop.held, Nat.zero_add] at haccounted
          have hindex : 0 < state.clients.length := by omega
          refine ⟨[.finish 0, .acquire],
            { state with loop := .accepting, clients := state.clients.eraseIdx 0, free := 0 },
            Nat.le_refl _, ?_, rfl, fun _ => haccounted⟩
          simp [System.runFrom, serverSystem, Server.step, hloop, hfree,
            List.getElem?_eq_getElem hindex]

end Permits

/-! ## Slots -/

/-- The clients of a run never exceed `max_connections`, whatever errors the `accept` calls
had and whenever the clients ended. The loop waits for a client only when all slots are
taken; otherwise it comes to its next `accept` on its own. With no slots at all it never
accepts anybody. -/
theorem accept_loop_slots (config : Config) (width : PointerWidth) (check : Bool)
    (maxConnections : Nat) {labels : List Label} {state : State}
    (hrun : (serverSystem config width check maxConnections).run labels = some state) :
    state.clients.length + state.loop.held ≤ maxConnections ∧
    (0 < maxConnections → (∀ verdict, state.loop ≠ .stopped verdict) →
      ∃ steps accepting, steps.length ≤ 2 ∧
        (serverSystem config width check maxConnections).run (labels ++ steps) = some accepting ∧
        accepting.loop = .accepting ∧
        ((∃ index, .finish index ∈ steps) → state.clients.length = maxConnections)) ∧
    (maxConnections = 0 → state.clients = [] ∧ state.loop.held = 0) := by
  have haccounted := accounted_of_run hrun
  refine ⟨?_, ?_, ?_⟩
  · unfold Accounted at haccounted
    omega
  · intro hmax hrunning
    obtain ⟨steps, accepting, hlength, hsteps, hloop, hfull⟩ :=
      @exists_accepting config width check state maxConnections haccounted hmax hrunning
    refine ⟨steps, accepting, hlength, ?_, hloop, hfull⟩
    unfold System.run at hrun ⊢
    rw [System.runFrom_append, hrun]
    exact hsteps
  · rintro rfl
    unfold Accounted at haccounted
    exact ⟨List.length_eq_zero_iff.mp (by omega), by omega⟩

/-- Three clients for two slots: the third one waits until the first one has gone. -/
theorem accept_loop_slots_full :
    ∃ state, (serverSystem {} .bits64 false 2).run
        [.acquire, .accept, .acquire, .acceptFailed (some 24), .wake, .acquire, .accept] =
          some state ∧
      state.clients.length + state.loop.held ≤ 2 ∧
      ∃ steps accepting, steps.length ≤ 2 ∧
        (serverSystem {} .bits64 false 2).run
          ([.acquire, .accept, .acquire, .acceptFailed (some 24), .wake, .acquire, .accept] ++
            steps) = some accepting ∧
        accepting.loop = .accepting := by
  obtain ⟨hslots, hserves, -⟩ := @accept_loop_slots {} .bits64 false 2
    [.acquire, .accept, .acquire, .acceptFailed (some 24), .wake, .acquire, .accept] _ rfl
  obtain ⟨steps, accepting, hlength, hrun, hloop, -⟩ := hserves (by decide) nofun
  exact ⟨_, rfl, hslots, steps, accepting, hlength, hrun, hloop⟩

/-! ## Descriptors -/

section Descriptors

variable {config : Config} {width : PointerWidth} {check : Bool} {state next : State}

/-- A step of the server is at most one step of the pool. -/
theorem pool_of_step {label : Label}
    (hstep : Server.step config width check state label = some next) :
    next.pool = state.pool ∨
      ∃ poolLabel, poolStep config width state.pool poolLabel = some next.pool := by
  cases label with
  | get index key targetIp allowRefill now closed =>
      simp only [Server.step] at hstep
      split at hstep
      next hclient =>
        obtain ⟨pool, hpool, rfl⟩ := Option.map_eq_some_iff.mp hstep
        exact .inr ⟨_, hpool⟩
      next => cases hstep
  | background label =>
      simp only [Server.step] at hstep
      split at hstep
      next =>
        obtain ⟨pool, hpool, rfl⟩ := Option.map_eq_some_iff.mp hstep
        exact .inr ⟨_, hpool⟩
      next => cases hstep
  | verdict allOk =>
      simp only [Server.step, State.leave] at hstep
      left
      split at hstep
      · split at hstep <;> cases hstep <;> rfl
      · cases hstep
  | _ =>
      simp only [Server.step, State.leave] at hstep
      left
      split at hstep <;> cases hstep <;> rfl

/-- The direct map keeps to its reserve, and the Cloudflare map is not used. -/
structure WithinReserve (config : Config) (pool : WsPool) : Prop where
  bounded : Pool.Bounded config pool.direct
  configured : Pool.Configured config pool.direct
  cf : pool.cf = CfPool.start

theorem WithinReserve.step {pool next : WsPool} {label : PoolLabel}
    (hdomains : config.cfDomains = []) (hworkers : config.cfWorkerDomains = [])
    (hpool : WithinReserve config pool) (hstep : poolStep config width pool label = some next) :
    WithinReserve config next := by
  rcases Pool.poolStep_cases hstep with
    ⟨direct, -, hrouted, hmoves, hsame⟩ | ⟨cf, -, hcf, hsame⟩
  · exact ⟨hpool.bounded.step hmoves, hpool.configured.step hrouted hmoves, hsame.trans hpool.cf⟩
  · have hunchanged := Pool.cfStep_unconfigured hdomains hworkers (by rw [hpool.cf]; rfl)
      (by rw [hpool.cf]; rfl) hcf
    exact ⟨hsame ▸ hpool.bounded, hsame ▸ hpool.configured, hunchanged.trans hpool.cf⟩

theorem withinReserve_of_run {maxConnections : Nat} {labels : List Label}
    (hdomains : config.cfDomains = []) (hworkers : config.cfWorkerDomains = [])
    (hrun : (serverSystem config width check maxConnections).run labels = some state) :
    WithinReserve config state.pool := by
  refine @System.runFrom_invariant _ _ (serverSystem config width check maxConnections)
    (fun state => WithinReserve config state.pool) ?_ labels _ state ?_ hrun
  · intro state label next hstep hpool
    rcases pool_of_step hstep with hsame | ⟨poolLabel, hpoolStep⟩
    · rw [hsame]
      exact hpool
    · exact hpool.step hdomains hworkers hpoolStep
  · exact ⟨Pool.start_bounded config, Pool.start_configured config, rfl⟩

theorem sum_descriptors_le (clients : List Client) :
    (clients.map Client.descriptors).sum ≤ fdsPerConnection * clients.length := by
  induction clients with
  | nil => exact Nat.le_refl _
  | cons client clients ih =>
      have hclient : client.descriptors ≤ 2 := by cases client with
        | mk outbound => cases outbound <;> decide
      rw [List.map_cons, List.sum_cons, List.length_cons]
      unfold fdsPerConnection at ih ⊢
      omega

end Descriptors

/-- The descriptors of the whole process. With the number of connections that is computed
from the limit, without a Cloudflare domain or Worker, and with a limit that has room for the
reserve and four clients: in every run, the listener, the clients with their connections and
the pool leave the margin of the runtime free. -/
theorem process_descriptor_budget (config : Config) (width : PointerWidth) (check : Bool)
    {fdLimit : Nat} (hlimit : fdLimit < width.usizeMax)
    (hroom : 1 + poolFds config + runtimeReservedFds + fdsPerConnection * minMaxConnections ≤
      fdLimit)
    (hdomains : config.cfDomains = []) (hworkers : config.cfWorkerDomains = [])
    {labels : List Label} {state : State}
    (hrun : (serverSystem config width check
      (autoMaxConnections width fdLimit config.poolSize (dcBuckets config))).run labels =
        some state)
    (keys : Finset PoolKey) (cfKeys : Finset CfKey) :
    state.descriptors config keys cfKeys + runtimeReservedFds ≤ fdLimit := by
  have hbudget := autoMaxConnections_budget hlimit hroom
  have haccounted := accounted_of_run hrun
  have hpool := withinReserve_of_run hdomains hworkers hrun
  have hdirect := hpool.bounded.sockets_le hpool.configured keys
  have hcf : state.pool.cf.sockets cfKeys = 0 := by
    apply Pool.Unused.sockets_eq_zero
    rw [hpool.cf]
    exact ⟨fun _ => rfl, fun _ hmem => (List.not_mem_nil hmem).elim⟩
  have hclients := sum_descriptors_le state.clients
  have hslots : state.clients.length ≤
      autoMaxConnections width fdLimit config.poolSize (dcBuckets config) := by
    unfold Accounted at haccounted
    omega
  unfold State.descriptors
  rw [hcf]
  unfold poolFds at hdirect
  unfold fdsPerConnection fdsPerPoolSlot at hbudget
  unfold fdsPerConnection at hclients
  omega

/-- The default limit of 1024 with the built-in targets. -/
theorem process_descriptor_budget_default :
    let config : Config :=
      { poolSize := 4, dcIp := [(2, "149.154.167.220"), (4, "149.154.167.220")] }
    ∃ state, (serverSystem config .bits64 false
        (autoMaxConnections .bits64 1024 config.poolSize (dcBuckets config))).run
          [.acquire, .accept, .background (.direct (.warmupStart 0)), .dial 0] = some state ∧
      state.descriptors config ∅ ∅ + runtimeReservedFds ≤ 1024 := by
  intro config
  have hbudget := fun state => @process_descriptor_budget config .bits64 false 1024 (by decide)
    (by decide) rfl rfl [.acquire, .accept, .background (.direct (.warmupStart 0)), .dial 0] state
  have hauto : autoMaxConnections .bits64 1024 config.poolSize (dcBuckets config) = 479 := by
    decide
  rw [hauto] at hbudget ⊢
  exact ⟨_, rfl, hbudget _ rfl ∅ ∅⟩

end TgWsProxy.Server
