import Mathlib.Data.List.Basic

/-!
# Transducers

A machine that turns each input into some outputs, and has a last word at the end of its
input. It may break down on an input.
-/

namespace Foundation

structure Transducer (State Input Output : Type) where
  /-- `none` is a breakdown. -/
  step : State → Input → Option (State × List Output)
  finish : State → List Output

namespace Transducer

variable {State Input Output : Type} (machine : Transducer State Input Output)

/-- The state after the inputs, and all outputs on the way. -/
def feed : State → List Input → Option (State × List Output)
  | state, [] => some (state, [])
  | state, input :: inputs =>
      match machine.step state input with
      | none => none
      | some (next, output) => (feed next inputs).map fun last => (last.1, output ++ last.2)

/-- One more input. -/
theorem feed_concat {state middle next : State} {inputs : List Input} {outputs output : List Output}
    {input : Input} (hfeed : machine.feed state inputs = some (middle, outputs))
    (hstep : machine.step middle input = some (next, output)) :
    machine.feed state (inputs ++ [input]) = some (next, outputs ++ output) := by
  induction inputs generalizing state outputs with
  | nil =>
      cases hfeed
      simp [feed, hstep]
  | cons first inputs ih =>
      rw [List.cons_append, feed]
      rw [feed] at hfeed
      cases hfirst : machine.step state first with
      | none =>
          rw [hfirst] at hfeed
          cases hfeed
      | some result =>
          rw [hfirst] at hfeed
          obtain ⟨last, hlast, heq⟩ := Option.map_eq_some_iff.mp hfeed
          cases heq
          simp only [ih hlast, Option.map_some, List.append_assoc]

/-- A breakdown on one more input. -/
theorem feed_concat_none {state middle : State} {inputs : List Input} {outputs : List Output}
    {input : Input} (hfeed : machine.feed state inputs = some (middle, outputs))
    (hstep : machine.step middle input = none) : machine.feed state (inputs ++ [input]) = none := by
  induction inputs generalizing state outputs with
  | nil =>
      cases hfeed
      simp [feed, hstep]
  | cons first inputs ih =>
      rw [List.cons_append, feed]
      rw [feed] at hfeed
      cases hfirst : machine.step state first with
      | none => rfl
      | some result =>
          rw [hfirst] at hfeed
          obtain ⟨last, hlast, heq⟩ := Option.map_eq_some_iff.mp hfeed
          cases heq
          simp only [ih hlast, Option.map_none]

end Transducer

end Foundation
