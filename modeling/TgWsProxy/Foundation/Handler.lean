import TgWsProxy.Foundation.Guard

/-!
# Programs over a state that answers

A state answers some of the calls of a program itself, and passes the others on to the
world outside. Here is what a program can come to from a given state, with some answers
from outside; every such run is one of the program's runs.
-/

namespace Foundation.Effect

/-- The answer to a call, given the one that the world outside would give, and the state
afterwards. -/
abbrev Answers (sig : Signature) (State : Type) :=
  State → (op : sig.Op) → sig.Reply op → sig.Reply op × State

namespace Program

variable {sig : Signature} {State α β : Type} {answer : Answers sig State}

/-- With some answers from outside, the program comes from the first state and point to
the second ones, by the calls in the trace. -/
inductive Proceeds (answer : Answers sig State) :
    State → Program sig α → Trace sig → Program sig α → State → Prop
  | refl (state : State) (program : Program sig α) : Proceeds answer state program [] program state
  | call {state final : State} {op : sig.Op} {next : sig.Reply op → Program sig α}
      {trace : Trace sig} {rest : Program sig α} (outside : sig.Reply op)
      (hnext : Proceeds answer (answer state op outside).2 (next (answer state op outside).1) trace
        rest final) :
      Proceeds answer state (.call op next) (⟨op, (answer state op outside).1⟩ :: trace) rest final

namespace Proceeds

variable {state middle final : State} {trace : Trace sig}

theorem reaches {program rest : Program sig α}
    (hproceeds : Proceeds answer state program trace rest final) : Reaches program trace rest := by
  induction hproceeds with
  | refl state program => exact .refl program
  | call outside _ ih => exact .call _ ih

theorem bind {first : Program sig β} {next : β → Program sig α} {rest : Program sig α}
    {before : Trace sig} {value : β}
    (hfirst : Proceeds answer state first before (.pure value) middle)
    (hnext : Proceeds answer middle (next value) trace rest final) :
    Proceeds answer state (first >>= next) (before ++ trace) rest final := by
  generalize hend : Program.pure value = ending at hfirst
  induction hfirst with
  | refl state program =>
      subst hend
      exact hnext
  | call outside _ ih => exact .call outside (ih hnext hend)

theorem bind_left {first rest : Program sig β}
    (hproceeds : Proceeds answer state first trace rest final) (next : β → Program sig α) :
    Proceeds answer state (first >>= next) trace (rest >>= next) final := by
  induction hproceeds with
  | refl state program => exact .refl state _
  | call outside _ ih => exact .call outside ih

end Proceeds

/-- From every state the program can end with a value of the kind. -/
def CanEnd (answer : Answers sig State) (kind : α → Prop) (program : Program sig α) : Prop :=
  ∀ state, ∃ trace value final, Proceeds answer state program trace (.pure value) final ∧ kind value

namespace CanEnd

variable {kind : α → Prop}

theorem pure {value : α} (hvalue : kind value) : CanEnd answer kind (Pure.pure value) :=
  fun state => ⟨[], value, state, .refl _ _, hvalue⟩

theorem perform {op : sig.Op} {kind : sig.Reply op → Prop}
    (hreply : ∀ state, ∃ outside, kind (answer state op outside).1) :
    CanEnd answer kind (perform op) := by
  intro state
  obtain ⟨outside, hkind⟩ := hreply state
  exact ⟨_, _, _, .call outside (.refl _ _), hkind⟩

theorem bind {first : Program sig β} {next : β → Program sig α} {middle : β → Prop}
    (hfirst : CanEnd answer middle first)
    (hnext : ∀ value, middle value → CanEnd answer kind (next value)) :
    CanEnd answer kind (first >>= next) := by
  intro state
  obtain ⟨before, value, state, hbefore, hvalue⟩ := hfirst state
  obtain ⟨after, result, final, hafter, hresult⟩ := hnext value hvalue state
  exact ⟨before ++ after, result, final, hbefore.bind hafter, hresult⟩

end CanEnd

/-- From every state the program can come to a call of the kind. -/
def CanCall (answer : Answers sig State) (kind : sig.Op → Prop) (program : Program sig α) : Prop :=
  ∀ state, ∃ trace op next final,
    Proceeds answer state program trace (.call op next) final ∧ kind op

namespace CanCall

variable {kind : sig.Op → Prop}

theorem perform {op : sig.Op} (hop : kind op) : CanCall answer kind (perform op) :=
  fun state => ⟨[], op, _, state, .refl _ _, hop⟩

theorem bind_left {first : Program sig β} (hfirst : CanCall answer kind first)
    (next : β → Program sig α) : CanCall answer kind (first >>= next) := by
  intro state
  obtain ⟨trace, op, rest, final, hproceeds, hop⟩ := hfirst state
  exact ⟨trace, op, _, final, hproceeds.bind_left next, hop⟩

theorem bind {first : Program sig β} {next : β → Program sig α} {middle : β → Prop}
    (hfirst : CanEnd answer middle first)
    (hnext : ∀ value, middle value → CanCall answer kind (next value)) :
    CanCall answer kind (first >>= next) := by
  intro state
  obtain ⟨before, value, state, hbefore, hvalue⟩ := hfirst state
  obtain ⟨after, op, rest, final, hafter, hop⟩ := hnext value hvalue state
  exact ⟨before ++ after, op, rest, final, hbefore.bind hafter, hop⟩

end CanCall

end Program

end Foundation.Effect
