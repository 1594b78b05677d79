import TgWsProxy.Foundation.Effect

/-!
# Points of a run

A program stands somewhere in one of its runs, with some calls made and the rest
to come. `Guards` says which calls it may make at such a point, from the calls
that came before: a judgement about runs that never end, or end in a call that
is never answered, as well as about complete ones.
-/

namespace Foundation.Effect

namespace Program

variable {sig : Signature} {α β : Type}

/-- The program has performed the calls in `trace` and stands at `rest`. -/
inductive Reaches : Program sig α → Trace sig → Program sig α → Prop
  | refl (program : Program sig α) : Reaches program [] program
  | call {op : sig.Op} {next : sig.Reply op → Program sig α} (reply : sig.Reply op)
      {trace : Trace sig} {rest : Program sig α} (hnext : Reaches (next reply) trace rest) :
      Reaches (.call op next) (⟨op, reply⟩ :: trace) rest

namespace Reaches

variable {program rest : Program sig α} {trace : Trace sig}

theorem step {op : sig.Op} {next : sig.Reply op → Program sig α}
    (hreaches : Reaches program trace (.call op next)) (reply : sig.Reply op) :
    Reaches program (trace ++ [⟨op, reply⟩]) (next reply) := by
  generalize hrest : Program.call op next = rest at hreaches
  induction hreaches with
  | refl program =>
      subst hrest
      exact .call reply (.refl _)
  | call first hnext ih => exact .call first (ih hrest)

theorem runs {tail : Trace sig} {value : α} (hreaches : Reaches program trace rest)
    (htail : Runs rest tail value) : Runs program (trace ++ tail) value := by
  induction hreaches with
  | refl program => exact htail
  | call reply hnext ih => exact .call reply (ih htail)

/-- A program that has come to its end stands at the next one. -/
theorem bind {first : Program sig β} {next : β → Program sig α} {before : Trace sig} {value : β}
    (hfirst : Runs first before value) (hnext : Reaches (next value) trace rest) :
    Reaches (first >>= next) (before ++ trace) rest := by
  induction hfirst with
  | pure value => exact hnext
  | call reply hfirst ih => exact .call reply (ih hnext)

/-- What the program has done so far is the beginning of one of its runs. -/
theorem exists_run (hreaches : Reaches program trace rest)
    (outside : (op : sig.Op) → sig.Reply op) :
    ∃ tail value, Runs program (trace ++ tail) value :=
  ⟨_, _, hreaches.runs (execute_runs (fun _ => outside) rest [])⟩

end Reaches

/-! ## Guarded calls -/

/-- After the calls in `done`, the program makes only calls that are allowed after
all those before them, and its result meets the postcondition. -/
def Guards (allowed : Trace sig → sig.Op → Prop) (post : Trace sig → α → Prop) :
    Trace sig → Program sig α → Prop
  | done, .pure value => post done value
  | done, .call op next =>
      allowed done op ∧ ∀ reply, (next reply).Guards allowed post (done ++ [⟨op, reply⟩])

namespace Guards

variable {allowed : Trace sig → sig.Op → Prop} {post : Trace sig → α → Prop} {done : Trace sig}

theorem pure {value : α} (hpost : post done value) :
    Guards allowed post done (Pure.pure value) := hpost

theorem perform {op : sig.Op} {post : Trace sig → sig.Reply op → Prop}
    (hallowed : allowed done op) (hpost : ∀ reply, post (done ++ [⟨op, reply⟩]) reply) :
    Guards allowed post done (perform op) := ⟨hallowed, hpost⟩

theorem bind {program : Program sig α} {next : α → Program sig β} {middle : Trace sig → α → Prop}
    {post : Trace sig → β → Prop} (hprogram : Guards allowed middle done program)
    (hnext : ∀ done value, middle done value → Guards allowed post done (next value)) :
    Guards allowed post done (program >>= next) := by
  induction program generalizing done with
  | pure value => exact hnext done value hprogram
  | call op rest ih => exact ⟨hprogram.1, fun reply => ih reply (hprogram.2 reply)⟩

/-- Every call that a run comes to was allowed. -/
theorem allowed_of_reaches {program : Program sig α} {trace : Trace sig} {op : sig.Op}
    {next : sig.Reply op → Program sig α} (hguards : Guards allowed post done program)
    (hreaches : Reaches program trace (.call op next)) : allowed (done ++ trace) op := by
  generalize hrest : Program.call op next = rest at hreaches
  induction hreaches generalizing done with
  | refl program =>
      subst hrest
      rw [List.append_nil]
      exact hguards.1
  | call reply hnext ih =>
      have hallowed := ih (hguards.2 reply) hrest
      rwa [List.append_assoc] at hallowed

/-- A run that comes to its end meets the postcondition there. -/
theorem of_runs {program : Program sig α} {trace : Trace sig} {value : α}
    (hguards : Guards allowed post done program) (hrun : Runs program trace value) :
    post (done ++ trace) value := by
  induction hrun generalizing done with
  | pure value =>
      rw [List.append_nil]
      exact hguards
  | call reply _ ih =>
      have hpost := ih (hguards.2 reply)
      rwa [List.append_assoc] at hpost

/-- A program over the second signature, where each of its calls keeps the invariant
and is allowed under it. -/
theorem inr {left right : Signature} {allowed : Trace (left.sum right) → left.Op ⊕ right.Op → Prop}
    {invariant : Trace (left.sum right) → Prop}
    (hallowed : ∀ done op, invariant done → allowed done (.inr op))
    (hstep : ∀ done op reply, invariant done → invariant (done ++ [⟨.inr op, reply⟩]))
    (program : Program right α) {done : Trace (left.sum right)} (hdone : invariant done) :
    Guards allowed (fun done _ => invariant done) done (program.inr) := by
  induction program generalizing done with
  | pure value => exact hdone
  | call op next ih =>
      exact ⟨hallowed done op hdone, fun reply => ih reply (hstep done op reply hdone)⟩

/-- A program over the second signature whose calls are all allowed, with what its runs come
to. -/
theorem inr_of_runs {left right : Signature}
    {allowed : Trace (left.sum right) → left.Op ⊕ right.Op → Prop}
    {post : Trace (left.sum right) → α → Prop} (hallowed : ∀ done op, allowed done (.inr op))
    {program : Program right α} {done : Trace (left.sum right)}
    (hpost : ∀ trace value, Runs program trace value →
      post (done ++ trace.map fun event => ⟨.inr event.op, event.reply⟩) value) :
    Guards allowed post done (program.inr) := by
  induction program generalizing done with
  | pure value =>
      have hend := hpost [] value (.pure value)
      rwa [List.map_nil, List.append_nil] at hend
  | call op next ih =>
      refine ⟨hallowed done op, fun reply => ih reply fun trace value hrun => ?_⟩
      have hrest := hpost _ value (@Runs.call right α op next reply _ _ hrun)
      rwa [List.map_cons, List.append_cons] at hrest

end Guards

/-! ## Calls of a kind -/

/-- Every call that the program may make is of the given kind. -/
def Only (kind : sig.Op → Prop) : Program sig α → Prop
  | .pure _ => True
  | .call op next => kind op ∧ ∀ reply, (next reply).Only kind

namespace Only

variable {kind : sig.Op → Prop}

theorem pure (value : α) : Only kind (Pure.pure value : Program sig α) := trivial

theorem perform {op : sig.Op} (hop : kind op) : Only kind (perform op) := ⟨hop, fun _ => trivial⟩

theorem bind {program : Program sig α} {next : α → Program sig β} (hprogram : Only kind program)
    (hnext : ∀ value, Only kind (next value)) : Only kind (program >>= next) := by
  induction program with
  | pure value => exact hnext value
  | call op rest ih => exact ⟨hprogram.1, fun reply => ih reply (hprogram.2 reply)⟩

/-- The second program may rely on what the first one ensures. -/
theorem bind_of_ensures {program : Program sig α} {next : α → Program sig β} {post : α → Prop}
    (hprogram : Only kind program) (hpost : Ensures program fun _ value => post value)
    (hnext : ∀ value, post value → Only kind (next value)) : Only kind (program >>= next) := by
  induction program with
  | pure value => exact hnext value (hpost [] value (.pure value))
  | call op rest ih =>
      refine ⟨hprogram.1, fun reply => ih reply (hprogram.2 reply) ?_⟩
      intro trace value hrun
      exact hpost _ value (.call reply hrun)

theorem sequential : Sequential fun _ (program : Program sig _) => Only kind program where
  pure := pure
  bind := bind

theorem of_reaches {program : Program sig α} {trace : Trace sig} {op : sig.Op}
    {next : sig.Reply op → Program sig α} (honly : Only kind program)
    (hreaches : Reaches program trace (.call op next)) : kind op := by
  generalize hrest : Program.call op next = rest at hreaches
  induction hreaches with
  | refl program =>
      subst hrest
      exact honly.1
  | call reply hnext ih => exact ih (honly.2 reply) hrest

/-- A program whose calls are all of an allowed kind, with what its runs come to. -/
theorem guards {allowed : Trace sig → sig.Op → Prop} {post : Trace sig → α → Prop}
    {program : Program sig α} {done : Trace sig} (honly : Only kind program)
    (hallowed : ∀ done op, kind op → allowed done op)
    (hpost : ∀ trace value, Runs program trace value → post (done ++ trace) value) :
    Guards allowed post done program := by
  induction program generalizing done with
  | pure value =>
      have hend := hpost [] value (.pure value)
      rwa [List.append_nil] at hend
  | call op next ih =>
      refine ⟨hallowed done op honly.1, fun reply => ih reply (honly.2 reply) ?_⟩
      intro trace value hrun
      have hrest := hpost _ value (.call reply hrun)
      rwa [List.append_cons] at hrest

end Only

end Program

end Foundation.Effect
