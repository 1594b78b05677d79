import TgWsProxy.Foundation.Guard
import TgWsProxy.Foundation.Transition

/-!
# Programs that share a state

Any number of threads run programs over one shared state, one call at a time in
any order. The shared state answers a call from what it holds and from what the
world outside would answer, and time may pass between any two calls. What holds
of every run of a program on its own holds of every thread; what depends on the
other threads is shown from the calls that a run takes.
-/

namespace Foundation.Concurrent

open Foundation.Effect Foundation.Transition

/-- What the threads share, and what each of them runs. -/
structure World (sig : Signature) (Shared Job Result : Type) where
  start : Shared
  program : Job → Program sig Result
  /-- The answer to a call, given the one that the world outside would give, and
  the shared state afterwards. -/
  answer : Shared → (op : sig.Op) → sig.Reply op → sig.Reply op × Shared
  /-- The shared state after some time. -/
  elapse : Shared → Nat → Shared

/-- A thread with the calls it has made. -/
structure Thread (sig : Signature) (Job Result : Type) where
  job : Job
  done : Trace sig
  rest : Program sig Result

structure Crowd (sig : Signature) (Shared Job Result : Type) where
  shared : Shared
  threads : List (Thread sig Job Result)

inductive Label (sig : Signature) (Job : Type)
  | arrive (job : Job)
  | call (index : Nat) (outside : (op : sig.Op) → sig.Reply op)
  | elapse (time : Nat)

namespace World

variable {sig : Signature} {Shared Job Result : Type} (world : World sig Shared Job Result)

/-- The thread at `index` makes its next call. -/
def callStep (state : Crowd sig Shared Job Result) (index : Nat)
    (outside : (op : sig.Op) → sig.Reply op) (thread : Thread sig Job Result) :
    Option (Crowd sig Shared Job Result) :=
  match thread.rest with
  | .pure _ => none
  | .call op next =>
      let (reply, shared) := world.answer state.shared op (outside op)
      some
        { shared
          threads := state.threads.set index
            { thread with done := thread.done ++ [⟨op, reply⟩], rest := next reply } }

def step (state : Crowd sig Shared Job Result) :
    Label sig Job → Option (Crowd sig Shared Job Result)
  | .arrive job =>
      some { state with threads := state.threads ++ [⟨job, [], world.program job⟩] }
  | .call index outside =>
      (state.threads[index]?).bind fun thread => world.callStep state index outside thread
  | .elapse time => some { state with shared := world.elapse state.shared time }

def system : System (Crowd sig Shared Job Result) (Label sig Job) where
  start := ⟨world.start, []⟩
  step := world.step

/-- The thread is about to call `op`, and the answer will be `reply`. -/
def Calls (state : Crowd sig Shared Job Result) (label : Label sig Job)
    (thread : Thread sig Job Result) (event : Event sig) (next : Program sig Result) : Prop :=
  ∃ index outside rest, label = .call index outside ∧ state.threads[index]? = some thread ∧
    thread.rest = .call event.op rest ∧
    (world.answer state.shared event.op (outside event.op)).1 = event.reply ∧
    rest event.reply = next

variable {world}

/-- A property of threads that every new thread has and every call keeps is kept by
every step. -/
theorem step_thread {state next : Crowd sig Shared Job Result} {label : Label sig Job}
    (property : Thread sig Job Result → Prop)
    (harrive : ∀ job, property ⟨job, [], world.program job⟩)
    (hcall : ∀ thread event rest, world.Calls state label thread event rest → property thread →
      property ⟨thread.job, thread.done ++ [event], rest⟩)
    (hall : ∀ thread ∈ state.threads, property thread)
    (hstep : world.step state label = some next) : ∀ thread ∈ next.threads, property thread := by
  cases label with
  | arrive job =>
      cases hstep
      intro thread hmem
      rcases List.mem_append.mp hmem with hmem | hmem
      · exact hall thread hmem
      · rw [List.mem_singleton.mp hmem]
        exact harrive job
  | elapse time =>
      cases hstep
      exact hall
  | call index outside =>
      obtain ⟨thread, hthread, hmove⟩ := Option.bind_eq_some_iff.mp hstep
      unfold callStep at hmove
      split at hmove
      next => cases hmove
      next op rest hrest =>
        cases hmove
        intro other hmem
        rcases List.mem_or_eq_of_mem_set hmem with hmem | rfl
        · exact hall other hmem
        · exact hcall thread ⟨op, _⟩ _ ⟨index, outside, rest, rfl, hthread, hrest, rfl, rfl⟩
            (hall thread (List.mem_of_getElem? hthread))

/-- Such a property holds of all threads in every state that a run visits. -/
theorem visits_thread {labels : List (Label sig Job)}
    (property : Thread sig Job Result → Prop)
    (harrive : ∀ job, property ⟨job, [], world.program job⟩)
    (hcall : ∀ state label thread event next, world.system.Takes labels state label →
      world.Calls state label thread event next → property thread →
      property ⟨thread.job, thread.done ++ [event], next⟩)
    {state : Crowd sig Shared Job Result} (hvisits : world.system.Visits labels state) :
    ∀ thread ∈ state.threads, property thread := by
  refine @System.Visits.induct _ _ world.system labels
    (fun state => ∀ thread ∈ state.threads, property thread)
    (fun _ hmem => (List.not_mem_nil hmem).elim) ?_ state hvisits
  intro state label next htakes hstep hall
  exact step_thread property harrive
    (fun thread event rest => hcall state label thread event rest htakes) hall hstep

/-- Every thread stands at a point of its program. -/
def Standing (world : World sig Shared Job Result) (state : Crowd sig Shared Job Result) : Prop :=
  ∀ thread ∈ state.threads, (world.program thread.job).Reaches thread.done thread.rest

theorem Standing.step {state next : Crowd sig Shared Job Result} {label : Label sig Job}
    (hstanding : Standing world state) (hstep : world.step state label = some next) :
    Standing world next := by
  refine step_thread (fun thread => (world.program thread.job).Reaches thread.done thread.rest)
    (fun job => .refl _) ?_ hstanding hstep
  rintro thread event next ⟨index, outside, rest, rfl, -, hrest, -, rfl⟩ hreaches
  rw [hrest] at hreaches
  exact hreaches.step event.reply

theorem visits_reaches {labels : List (Label sig Job)} {state : Crowd sig Shared Job Result}
    (hvisits : world.system.Visits labels state) : Standing world state :=
  System.Visits.invariant world.system (fun _ hmem => (List.not_mem_nil hmem).elim)
    (fun _ _ _ hstep hstanding => hstanding.step hstep) hvisits

end World

end Foundation.Concurrent
