import Mathlib.Data.List.Basic

/-!
# Programs with a state, errors and loops

A program changes a state, and returns a value or stops with an error; the state stays
after an error. A triple says what holds after each of the two endings. Loops carry a rank
that every round lowers, so that they are total, and are reasoned about with an invariant.
-/

namespace Foundation.Stateful

variable {ε σ α β κ : Type}

/-- What holds at the end of a run. -/
def Ends (returns : α → σ → Prop) (fails : ε → σ → Prop) : EStateM.Result ε σ α → Prop
  | .ok value state => returns value state
  | .error error state => fails error state

/-- A run from a state with `pre` that returns ends with `returns`, and one that stops with
`fails`. -/
def Triple (pre : σ → Prop) (program : EStateM ε σ α) (returns : α → σ → Prop)
    (fails : ε → σ → Prop) : Prop :=
  ∀ state, pre state → Ends returns fails (program state)

namespace Triple

variable {pre pre' : σ → Prop} {returns returns' : α → σ → Prop} {fails : ε → σ → Prop}

theorem entering {program : EStateM ε σ α} (htriple : Triple pre' program returns fails)
    (hpre : ∀ state, pre state → pre' state) : Triple pre program returns fails :=
  fun state hstate => htriple state (hpre state hstate)

/-- From a single state. -/
theorem at_state {program : EStateM ε σ α} {state : σ} (htriple : Triple pre program returns fails)
    (hstate : pre state) : Triple (· = state) program returns fails := by
  rintro _ rfl
  exact htriple _ hstate

theorem leaving {program : EStateM ε σ α} (htriple : Triple pre program returns' fails)
    (hreturns : ∀ value state, returns' value state → returns value state) :
    Triple pre program returns fails := by
  intro state hstate
  have hends := htriple state hstate
  cases hrun : program state with
  | ok value next =>
      rw [hrun] at hends
      exact hreturns value next hends
  | error error next =>
      rw [hrun] at hends
      exact hends

theorem of_forall {program : EStateM ε σ α} (hreturns : ∀ value state, returns value state)
    (hfails : ∀ error state, fails error state) : Triple pre program returns fails := by
  intro state _
  cases program state with
  | ok value next => exact hreturns value next
  | error error next => exact hfails error next

/-- A consequence of the precondition that does not speak of the state. -/
theorem assuming {fact : Prop} {program : EStateM ε σ α} (hfact : ∀ state, pre state → fact)
    (htriple : fact → Triple pre program returns fails) : Triple pre program returns fails :=
  fun state hstate => htriple (hfact state hstate) state hstate

theorem pure {value : α} (hpre : ∀ state, pre state → returns value state) :
    Triple pre (pure value : EStateM ε σ α) returns fails := hpre

theorem throw {error : ε} (hpre : ∀ state, pre state → fails error state) :
    Triple pre (throw error : EStateM ε σ α) returns fails := hpre

theorem modify {change : σ → σ} {returns : Unit → σ → Prop}
    (hpre : ∀ state, pre state → returns () (change state)) :
    Triple pre (modify change : EStateM ε σ Unit) returns fails := hpre

theorem ofExcept {result : Except ε α}
    (hok : ∀ value state, result = .ok value → pre state → returns value state)
    (herror : ∀ error state, result = .error error → pre state → fails error state) :
    Triple pre (MonadExcept.ofExcept result : EStateM ε σ α) returns fails := by
  intro state hstate
  cases result with
  | ok value => exact hok value state rfl hstate
  | error error => exact herror error state rfl hstate

/-- What is read of the state is the state. -/
theorem get_bind {next : σ → EStateM ε σ α}
    (hnext : ∀ state, pre state → Triple (· = state) (next state) returns fails) :
    Triple pre (get >>= next) returns fails :=
  fun state hstate => hnext state hstate state rfl

/-- A pure computation leaves the state as it is. -/
theorem ofExcept_bind {result : Except ε β} {next : β → EStateM ε σ α}
    (hok : ∀ value, result = .ok value → Triple pre (next value) returns fails)
    (herror : ∀ error state, result = .error error → pre state → fails error state) :
    Triple pre (MonadExcept.ofExcept result >>= next) returns fails := by
  intro state hstate
  cases result with
  | ok value => exact hok value rfl state hstate
  | error error => exact herror error state rfl hstate

theorem ofExcept_bind_ok {result : Except ε β} {value : β} {next : β → EStateM ε σ α}
    (hresult : result = .ok value) (hnext : Triple pre (next value) returns fails) :
    Triple pre (MonadExcept.ofExcept result >>= next) returns fails := by
  rw [hresult]
  exact hnext

theorem bind {first : EStateM ε σ β} {next : β → EStateM ε σ α} (middle : β → σ → Prop)
    (hfirst : Triple pre first middle fails)
    (hnext : ∀ value, Triple (middle value) (next value) returns fails) :
    Triple pre (first >>= next) returns fails := by
  intro state hstate
  have hends := hfirst state hstate
  change Ends returns fails (EStateM.bind first next state)
  unfold EStateM.bind
  cases hrun : first state with
  | ok value middle =>
      rw [hrun] at hends
      exact hnext value middle hends
  | error error middle =>
      rw [hrun] at hends
      exact hends

/-- A program that cannot fail returns. -/
theorem exists_ok {program : EStateM ε σ α} {state : σ}
    (htriple : Triple pre program returns fun _ _ => False) (hstate : pre state) :
    ∃ value next, program state = .ok value next ∧ returns value next := by
  have hends := htriple state hstate
  cases hrun : program state with
  | ok value next =>
      rw [hrun] at hends
      exact ⟨value, next, rfl, hends⟩
  | error error next =>
      rw [hrun] at hends
      exact hends.elim

/-- A program that cannot return fails. -/
theorem exists_error {program : EStateM ε σ α} {state : σ}
    (htriple : Triple pre program (fun _ _ => False) fails) (hstate : pre state) :
    ∃ error next, program state = .error error next ∧ fails error next := by
  have hends := htriple state hstate
  cases hrun : program state with
  | ok value next =>
      rw [hrun] at hends
      exact hends.elim
  | error error next =>
      rw [hrun] at hends
      exact ⟨error, next, rfl, hends⟩

end Triple

/-! ## Loops -/

/-- A round that goes on to another one lowers the rank. -/
def Descends (round : κ → EStateM ε σ (κ ⊕ β)) (rank : κ → σ → Nat) : Prop :=
  ∀ ⦃key state next after⦄, round key state = .ok (.inl next) after →
    rank next after < rank key state

theorem descends_of_triple {round : κ → EStateM ε σ (κ ⊕ β)} {rank : κ → σ → Nat}
    (hround : ∀ key bound, Triple (fun state => rank key state = bound) (round key)
      (Sum.elim (fun next after => rank next after < bound) fun _ _ => True) fun _ _ => True) :
    Descends round rank := by
  intro key state next after hrun
  have hends := hround key (rank key state) state rfl
  rw [hrun] at hends
  exact hends

/-- Rounds until one of them gives a value, from the given loop variables. -/
def runLoop (round : κ → EStateM ε σ (κ ⊕ β)) (rank : κ → σ → Nat)
    (hdescends : Descends round rank) (key : κ) (state : σ) : EStateM.Result ε σ β :=
  match _hround : round key state with
  | .ok (.inl next) after => runLoop round rank hdescends next after
  | .ok (.inr value) after => .ok value after
  | .error error after => .error error after
termination_by rank key state
decreasing_by exact hdescends _hround

def loop (round : κ → EStateM ε σ (κ ⊕ β)) (rank : κ → σ → Nat) (hdescends : Descends round rank)
    (key : κ) : EStateM ε σ β := runLoop round rank hdescends key

section Loop

variable {round : κ → EStateM ε σ (κ ⊕ β)} {rank : κ → σ → Nat} {hdescends : Descends round rank}

/-- A loop is its first round, and the loop again if the round does not end it. -/
theorem loop_eq (key : κ) :
    loop round rank hdescends key =
      round key >>= Sum.elim (loop round rank hdescends) EStateM.pure := by
  funext state
  change runLoop round rank hdescends key state = EStateM.bind _ _ state
  rw [runLoop, EStateM.bind]
  split
  next next after hround => rw [hround]; rfl
  next value after hround => rw [hround]; rfl
  next error after hround => rw [hround]

/-- An invariant of the rounds holds up to the end of the loop. -/
theorem Triple.loop (invariant : κ → σ → Prop) {returns : β → σ → Prop} {fails : ε → σ → Prop}
    (hround : ∀ key, Triple (invariant key) (round key) (Sum.elim invariant returns) fails)
    (key : κ) : Triple (invariant key) (loop round rank hdescends key) returns fails := by
  intro state hstate
  induction hrank : rank key state using Nat.strongRecOn generalizing key state with
  | ind bound ih =>
      have hends := hround key state hstate
      rw [loop_eq]
      change Ends returns fails (EStateM.bind _ _ state)
      unfold EStateM.bind
      cases hrun : round key state with
      | error error after =>
          rw [hrun] at hends
          exact hends
      | ok next after =>
          rw [hrun] at hends
          cases next with
          | inl next => exact ih _ (hrank ▸ hdescends hrun) next after hends rfl
          | inr value => exact hends

end Loop

end Foundation.Stateful
