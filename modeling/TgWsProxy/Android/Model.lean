import TgWsProxy.Foundation.Transition

/-!
# The Android shim

`start_proxy`, `stop_proxy` and `nativeIsRunning` work on one `ProxyState` behind a
mutex that each of them holds from its first line to its last, so a call is one step.
The worker thread never takes that lock: its progress is a step of its own, at any
time. A worker is named by its number, which stands for its join handle and for the
channel that carries its shutdown.
-/

namespace TgWsProxy.Android

open Foundation.Transition

/-! ## Workers -/

/-- Where the thread of a worker stands. -/
inductive WorkerPhase
  | building
  | serving (listening : Bool)
  /-- `block_on` has returned; the runtime is still to be shut down. -/
  | returned (succeeded : Bool)
  | woundDown (succeeded : Bool)
  /-- Behind `emit_stopped` or `emit_error`. -/
  | reported
  | finished
  deriving DecidableEq, Repr

inductive WorkerEvent
  | runtimeBuilt
  /-- `emit_error` without a runtime. -/
  | runtimeFailed
  | emitListening
  /-- `run_with_listen` has returned, on a shutdown or on its own. -/
  | runReturned (succeeded : Bool)
  | shutdownTimeout
  /-- `emit_stopped` or `emit_error`. -/
  | report
  | threadEnd
  | panic
  deriving DecidableEq, Repr

structure Worker where
  phase : WorkerPhase
  /-- The value in its shutdown channel. -/
  shutdown : Bool
  deriving DecidableEq, Repr

namespace WorkerPhase

def advance : WorkerPhase → WorkerEvent → Option WorkerPhase
  | .building, .runtimeBuilt => some (.serving false)
  | .building, .runtimeFailed => some .reported
  | .serving false, .emitListening => some (.serving true)
  | .serving _, .runReturned succeeded => some (.returned succeeded)
  | .returned succeeded, .shutdownTimeout => some (.woundDown succeeded)
  | .woundDown _, .report => some .reported
  | .reported, .threadEnd => some .finished
  | .finished, _ => none
  | _, .panic => some .finished
  | _, _ => none

/-- The shutdown future, with the receiver in it, goes when `block_on` returns. -/
def holdsReceiver : WorkerPhase → Bool
  | .building | .serving _ => true
  | .returned _ | .woundDown _ | .reported | .finished => false

end WorkerPhase

/-! ## The state behind the mutex -/

structure ProxyState where
  /-- The worker whose channel the sender feeds. -/
  shutdown : Option Nat
  /-- The worker whose join handle is kept. -/
  thread : Option Nat
  stopping : Bool
  deriving DecidableEq, Repr

structure Shim where
  state : ProxyState
  /-- A call panicked with the lock held. -/
  poisoned : Bool
  /-- Every worker that was ever spawned. -/
  workers : List Worker
  deriving DecidableEq, Repr

namespace Shim

/-- `JoinHandle::is_finished`. -/
def isFinished (shim : Shim) (id : Nat) : Bool :=
  match shim.workers[id]? with
  | some worker => worker.phase = .finished
  | none => true

/-- The loop of the shutdown future of a worker ends at its next poll: the channel says
so, or its sender is gone. -/
def shutdownCompletes (shim : Shim) (id : Nat) (worker : Worker) : Bool :=
  worker.shutdown || shim.state.shutdown ≠ some id

end Shim

/-- What becomes of a start that is not refused. -/
inductive StartOutcome
  /-- `Config::try_from_cli_line` rejects the arguments. -/
  | invalid (message : String)
  | panicked
  | spawnFailed (error : String)
  | spawned
  deriving DecidableEq, Repr

/-- Drop the handle of a worker that has exited. -/
def reap (shim : Shim) : ProxyState :=
  match shim.state.thread with
  | some id =>
      if shim.isFinished id then { shim.state with thread := none, stopping := false }
      else shim.state
  | none => shim.state

/-- The result is absent where the call panics. -/
def startProxy (shim : Shim) (outcome : StartOutcome) : Option (Except String Unit) × Shim :=
  if shim.poisoned then (some (.error "proxy state lock poisoned"), shim)
  else
    let state := reap shim
    if state.thread.isSome then
      let message :=
        if state.stopping then "proxy is still stopping, try again in a moment"
        else "proxy is already running"
      (some (.error message), { shim with state })
    else
      match outcome with
      | .invalid message => (some (.error message), { shim with state })
      | .panicked => (none, { shim with state, poisoned := true })
      | .spawnFailed error =>
          (some (.error ("failed to spawn proxy thread: " ++ error)), { shim with state })
      | .spawned =>
          let id := shim.workers.length
          (some (.ok ()),
            { shim with
              state := { shutdown := some id, thread := some id, stopping := false }
              workers := shim.workers ++ [⟨.building, false⟩] })

/-- `watch::Sender::send`: without a receiver the value stays as it is. -/
def sendShutdown (shim : Shim) (id : Nat) : List Worker :=
  shim.workers.modify id fun worker =>
    if worker.phase.holdsReceiver then { worker with shutdown := true } else worker

def stopProxy (shim : Shim) : Shim :=
  if shim.poisoned then shim
  else
    let workers :=
      match shim.state.shutdown with
      | some id => sendShutdown shim id
      | none => shim.workers
    { shim with
      state := { shim.state with shutdown := none, stopping := true }
      workers }

def nativeIsRunning (shim : Shim) : Bool :=
  if shim.poisoned then false
  else !shim.state.stopping && shim.state.thread.any fun id => !shim.isFinished id

/-! ## The system -/

inductive ShimLabel
  | start (outcome : StartOutcome)
  | stop
  | isRunning
  | work (id : Nat) (event : WorkerEvent)
  deriving DecidableEq, Repr

def shimStep (shim : Shim) : ShimLabel → Option Shim
  | .start outcome => some (startProxy shim outcome).2
  | .stop => some (stopProxy shim)
  | .isRunning => some shim
  | .work id event =>
      match shim.workers[id]? with
      | some worker =>
          (worker.phase.advance event).map fun phase =>
            { shim with workers := shim.workers.set id { worker with phase } }
      | none => none

def shimSystem : System Shim ShimLabel where
  start := ⟨⟨none, none, false⟩, false, []⟩
  step := shimStep

end TgWsProxy.Android
