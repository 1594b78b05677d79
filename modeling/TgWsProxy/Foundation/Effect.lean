import Mathlib.Control.Basic

/-!
# Programs that call an environment

A program either returns or calls an operation and goes on with the answer. It
says nothing about the answers: a run is any sequence of calls with any answers
that the program accepts one after another, so a fact about all runs holds for
every environment, whatever it remembers and whoever else uses it in between.
`Ensures` is the corresponding program logic, with one rule for each way to
build a program; `EnsuresAfter` carries along the calls that came before.
-/

namespace Foundation.Effect

/-- Operations, and the type of the answer to each. -/
structure Signature where
  Op : Type
  Reply : Op → Type

inductive Program (sig : Signature) (α : Type) : Type
  | pure (value : α)
  | call (op : sig.Op) (next : sig.Reply op → Program sig α)

/-- One call with its answer. -/
structure Event (sig : Signature) where
  op : sig.Op
  reply : sig.Reply op

abbrev Trace (sig : Signature) := List (Event sig)

namespace Program

variable {sig : Signature} {α β : Type}

protected def bind : Program sig α → (α → Program sig β) → Program sig β
  | .pure value, next => next value
  | .call op rest, next => .call op fun reply => (rest reply).bind next

instance : Monad (Program sig) where
  pure := .pure
  bind := Program.bind

/-- The call of a single operation. -/
def perform (op : sig.Op) : Program sig (sig.Reply op) := .call op .pure

/-! ## Runs -/

inductive Runs : Program sig α → Trace sig → α → Prop
  | pure (value : α) : Runs (.pure value) [] value
  | call {op : sig.Op} {next : sig.Reply op → Program sig α} (reply : sig.Reply op)
      {trace : Trace sig} {value : α} (hnext : Runs (next reply) trace value) :
      Runs (.call op next) (⟨op, reply⟩ :: trace) value

theorem Runs.perform (op : sig.Op) (reply : sig.Reply op) :
    Runs (perform op) [⟨op, reply⟩] reply := .call reply (.pure reply)

theorem Runs.bind {program : Program sig α} {next : α → Program sig β} {first second : Trace sig}
    {middle : α} {value : β} (hfirst : Runs program first middle)
    (hsecond : Runs (next middle) second value) :
    Runs (program >>= next) (first ++ second) value := by
  induction hfirst with
  | pure middle => exact hsecond
  | call reply hnext ih => exact .call reply (ih hsecond)

theorem runs_bind_iff {program : Program sig α} {next : α → Program sig β} {trace : Trace sig}
    {value : β} :
    Runs (program >>= next) trace value ↔
      ∃ first second middle, trace = first ++ second ∧ Runs program first middle ∧
        Runs (next middle) second value := by
  constructor
  · intro hrun
    induction program generalizing trace with
    | pure middle => exact ⟨[], trace, middle, rfl, .pure middle, hrun⟩
    | call op rest ih =>
        cases hrun with
        | call reply hnext =>
            obtain ⟨first, second, middle, rfl, hfirst, hsecond⟩ := ih reply hnext
            exact ⟨_, second, middle, rfl, .call reply hfirst, hsecond⟩
  · rintro ⟨first, second, middle, rfl, hfirst, hsecond⟩
    exact hfirst.bind hsecond

/-- The run of a program that starts with a call. -/
theorem Runs.of_call {op : sig.Op} {next : sig.Reply op → Program sig α} {trace : Trace sig}
    {value : α} (hrun : Runs (Program.perform op >>= next) trace value) :
    ∃ reply rest, trace = ⟨op, reply⟩ :: rest ∧ Runs (next reply) rest value := by
  obtain ⟨first, rest, reply, rfl, hfirst, hrest⟩ := runs_bind_iff.mp hrun
  cases hfirst with
  | call reply hnext =>
      cases hnext
      exact ⟨_, rest, rfl, hrest⟩

theorem Runs.of_pure {value result : α} {trace : Trace sig}
    (hrun : Runs (Pure.pure value : Program sig α) trace result) : trace = [] ∧ result = value := by
  cases hrun
  exact ⟨rfl, rfl⟩

/-- The run in an environment that answers from the calls so far. -/
def execute (respond : Trace sig → (op : sig.Op) → sig.Reply op) :
    Program sig α → Trace sig → Trace sig × α
  | .pure value, _ => ([], value)
  | .call op next, history =>
      let event : Event sig := ⟨op, respond history op⟩
      let (trace, value) := execute respond (next event.reply) (history ++ [event])
      (event :: trace, value)

/-- Every environment brings a program to its end, in one of its runs. -/
theorem execute_runs (respond : Trace sig → (op : sig.Op) → sig.Reply op)
    (program : Program sig α) (history : Trace sig) :
    Runs program (execute respond program history).1 (execute respond program history).2 := by
  induction program generalizing history with
  | pure value => exact .pure value
  | call op next ih => exact .call _ (ih _ _)

/-! ## Postconditions -/

/-- Every run of the program meets the postcondition. -/
def Ensures (program : Program sig α) (post : Trace sig → α → Prop) : Prop :=
  ∀ trace value, Runs program trace value → post trace value

/-- After the calls in `before`, every run of the program meets the postcondition. -/
def EnsuresAfter (before : Trace sig) (program : Program sig α) (post : Trace sig → α → Prop) :
    Prop :=
  Ensures program fun trace value => post (before ++ trace) value

namespace Ensures

variable {program : Program sig α} {post : Trace sig → α → Prop}

theorem pure {value : α} (hpost : post [] value) : Ensures (Pure.pure value) post := by
  intro trace result hrun
  cases hrun
  exact hpost

theorem perform {op : sig.Op} {post : Trace sig → sig.Reply op → Prop}
    (hpost : ∀ reply, post [⟨op, reply⟩] reply) : Ensures (perform op) post := by
  intro trace value hrun
  cases hrun with
  | call reply hnext =>
      cases hnext with
      | pure _ => exact hpost _

theorem bind {middle : Trace sig → α → Prop} {next : α → Program sig β}
    {post : Trace sig → β → Prop} (hprogram : Ensures program middle)
    (hnext : ∀ trace value, middle trace value → EnsuresAfter trace (next value) post) :
    Ensures (program >>= next) post := by
  intro trace result hrun
  obtain ⟨first, second, value, rfl, hfirst, hsecond⟩ := runs_bind_iff.mp hrun
  exact hnext first value (hprogram _ _ hfirst) _ _ hsecond

theorem call {op : sig.Op} {next : sig.Reply op → Program sig α}
    (hnext : ∀ reply, EnsuresAfter [⟨op, reply⟩] (next reply) post) :
    Ensures (Program.perform op >>= next) post := by
  refine .bind (perform fun reply => rfl : Ensures (Program.perform op) fun trace reply =>
    trace = [⟨op, reply⟩]) ?_
  rintro trace reply rfl
  exact hnext reply

theorem mono {weaker : Trace sig → α → Prop} (hprogram : Ensures program post)
    (hweaker : ∀ trace value, post trace value → weaker trace value) : Ensures program weaker :=
  fun trace value hrun => hweaker trace value (hprogram trace value hrun)

/-- A fact about the program alone is used after any calls. -/
theorem after {before : Trace sig} {whole : Trace sig → α → Prop} (hprogram : Ensures program post)
    (hwhole : ∀ trace value, post trace value → whole (before ++ trace) value) :
    EnsuresAfter before program whole :=
  hprogram.mono hwhole

end Ensures

namespace EnsuresAfter

variable {before : Trace sig}

theorem pure {post : Trace sig → α → Prop} {value : α} (hpost : post before value) :
    EnsuresAfter before (Pure.pure value) post := by
  refine Ensures.pure ?_
  rw [List.append_nil]
  exact hpost

theorem bind {program : Program sig α} {middle : Trace sig → α → Prop}
    {next : α → Program sig β} {post : Trace sig → β → Prop} (hprogram : Ensures program middle)
    (hnext : ∀ trace value, middle trace value →
      EnsuresAfter (before ++ trace) (next value) post) :
    EnsuresAfter before (program >>= next) post := by
  refine Ensures.bind hprogram ?_
  intro first value hfirst
  refine Ensures.mono (hnext first value hfirst) ?_
  intro second result hpost
  rw [List.append_assoc] at hpost
  exact hpost

theorem call {op : sig.Op} {next : sig.Reply op → Program sig α} {post : Trace sig → α → Prop}
    (hnext : ∀ reply, EnsuresAfter (before ++ [⟨op, reply⟩]) (next reply) post) :
    EnsuresAfter before (Program.perform op >>= next) post := by
  refine .bind (Ensures.perform fun reply => rfl : Ensures (Program.perform op) fun trace reply =>
    trace = [⟨op, reply⟩]) ?_
  rintro trace reply rfl
  exact hnext reply

end EnsuresAfter

end Program

/-! ## Two signatures -/

/-- The operations of both. -/
@[reducible] def Signature.sum (left right : Signature) : Signature where
  Op := left.Op ⊕ right.Op
  Reply
    | .inl op => left.Reply op
    | .inr op => right.Reply op

/-- A program over the second signature as one over both. -/
def Program.inr {left right : Signature} {α : Type} :
    Program right α → Program (left.sum right) α
  | .pure value => .pure value
  | .call op next => @Program.call (left.sum right) α (.inr op) fun reply => (next reply).inr

/-- A judgement about programs that their sequencing keeps. -/
structure Sequential {sig : Signature} (judgement : (α : Type) → Program sig α → Prop) : Prop where
  pure {α : Type} (value : α) : judgement α (Pure.pure value)
  bind {α β : Type} {program : Program sig α} {next : α → Program sig β} :
    judgement α program → (∀ value, judgement β (next value)) → judgement β (program >>= next)

/-- A property that a trace has when its parts have it. -/
structure Additive {sig : Signature} (property : Trace sig → Prop) : Prop where
  nil : property []
  append {first second : Trace sig} : property first → property second →
    property (first ++ second)

namespace Additive

variable {sig : Signature} {α β : Type} {property : Trace sig → Prop}

theorem pure (hadditive : Additive property) (value : α) :
    Program.Ensures (Pure.pure value) fun trace (_ : α) => property trace :=
  .pure hadditive.nil

theorem bind (hadditive : Additive property) {program : Program sig α}
    {next : α → Program sig β} (hprogram : program.Ensures fun trace _ => property trace)
    (hnext : ∀ value, (next value).Ensures fun trace _ => property trace) :
    Program.Ensures (program >>= next) fun trace _ => property trace := by
  refine .bind hprogram ?_
  intro first value hfirst
  exact (hnext value).after fun second _ hsecond => hadditive.append hfirst hsecond

theorem sequential (hadditive : Additive property) :
    Sequential fun _ (program : Program sig _) =>
      program.Ensures fun trace _ => property trace where
  pure := hadditive.pure
  bind := hadditive.bind

end Additive

/-! ## What goes out -/

section Output

variable {sig : Signature} {α : Type} (output : Event sig → Option (List α × Bool))

/-- What went out by the events in turn; `output` tells what an event tried to send and
whether it did. -/
def sent (trace : Trace sig) : List α :=
  trace.flatMap fun event =>
    match output event with
    | some (data, true) => data
    | _ => []

/-- Nothing that an event tried to send was lost. -/
def AllSent (trace : Trace sig) : Prop := ∀ event ∈ trace, ∀ data, output event ≠ some (data, false)

variable {output}

theorem allSent_cons {event : Event sig} {trace : Trace sig} :
    AllSent output (event :: trace) ↔
      (∀ data, output event ≠ some (data, false)) ∧ AllSent output trace :=
  List.forall_mem_cons

theorem AllSent.tail {event : Event sig} {trace : Trace sig}
    (hsent : AllSent output (event :: trace)) : AllSent output trace := (allSent_cons.mp hsent).2

theorem AllSent.head {event : Event sig} {trace : Trace sig}
    (hsent : AllSent output (event :: trace)) {data : List α} {done : Bool}
    (houtput : output event = some (data, done)) : done = true := by
  cases done with
  | false => exact absurd houtput ((allSent_cons.mp hsent).1 data)
  | true => rfl

end Output

end Foundation.Effect
