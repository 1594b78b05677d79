import Mathlib.Data.List.Forall2
import TgWsProxy.Foundation.Guard

/-!
# Programs that give up, and pairs of runs

A program that returns a value or an error is sequenced by `ExceptT`: the first error is
the result. Two programs mirror each other when every run of the one has a counterpart of
the other with related calls and the same result, so that nobody who sees only what the
relation keeps can tell them apart.
-/

namespace Foundation.Effect

open Program (Runs)

variable {sig : Signature} {ε α β : Type}

/-! ## The first error -/

theorem Program.runs_bindExcept {first : ExceptT ε (Program sig) α}
    {next : α → ExceptT ε (Program sig) β} {trace : Trace sig} {result : Except ε β}
    (hrun : Runs (first >>= next).run trace result) :
    (∃ error, Runs first.run trace (.error error) ∧ result = .error error) ∨
      ∃ before after value, trace = before ++ after ∧ Runs first.run before (.ok value) ∧
        Runs (next value).run after result := by
  obtain ⟨before, after, middle, rfl, hfirst, hnext⟩ := Program.runs_bind_iff.mp hrun
  cases middle with
  | error error =>
      obtain ⟨rfl, rfl⟩ := Runs.of_pure hnext
      rw [List.append_nil]
      exact .inl ⟨error, hfirst, rfl⟩
  | ok value => exact .inr ⟨before, after, value, rfl, hfirst, hnext⟩

/-- A postcondition of an attempt that its parts hand on to the whole. -/
structure Composes (post : (α : Type) → Trace sig → Except ε α → Prop) : Prop where
  pure {α : Type} (value : α) : post α [] (.ok value)
  error {α β : Type} {trace : Trace sig} {error : ε} :
    post α trace (.error error) → post β trace (.error error)
  append {α β : Type} {before after : Trace sig} {value : α} {result : Except ε β} :
    post α before (.ok value) → post β after result → post β (before ++ after) result

/-- The rule for sequencing, with what the second part may assume of its value. -/
theorem Composes.bind_of {post : (α : Type) → Trace sig → Except ε α → Prop} (hpost : Composes post)
    {first : ExceptT ε (Program sig) α} {next : α → ExceptT ε (Program sig) β} (middle : α → Prop)
    (hfirst : first.run.Ensures fun trace result =>
      post α trace result ∧ ∀ value, result = .ok value → middle value)
    (hnext : ∀ value, middle value → (next value).run.Ensures (post β)) :
    (first >>= next).run.Ensures (post β) := by
  intro trace result hrun
  rcases Program.runs_bindExcept hrun with ⟨error, hfailed, rfl⟩ |
    ⟨before, after, value, rfl, hbefore, hafter⟩
  · exact hpost.error (hfirst _ _ hfailed).1
  · obtain ⟨hdone, hvalue⟩ := hfirst _ _ hbefore
    exact hpost.append hdone (hnext value (hvalue value rfl) _ _ hafter)

theorem Composes.bind {post : (α : Type) → Trace sig → Except ε α → Prop} (hpost : Composes post)
    {first : ExceptT ε (Program sig) α} {next : α → ExceptT ε (Program sig) β}
    (hfirst : first.run.Ensures (post α)) (hnext : ∀ value, (next value).run.Ensures (post β)) :
    (first >>= next).run.Ensures (post β) :=
  hpost.bind_of (fun _ => True) (hfirst.mono fun _ _ hdone => ⟨hdone, fun _ _ => trivial⟩)
    fun value _ => hnext value

/-- A postcondition in two parts. -/
def Either (fails : Trace sig → ε → Prop) (returns : Trace sig → α → Prop) (done : Trace sig) :
    Except ε α → Prop
  | .error error => fails done error
  | .ok value => returns done value

/-- Sequencing at the points of a run: an error of the first part is one of the whole. -/
theorem Program.Guards.bindExcept {allowed : Trace sig → sig.Op → Prop}
    {fails : Trace sig → ε → Prop} {returns : Trace sig → β → Prop} {middle : Trace sig → α → Prop}
    {done : Trace sig} {first : ExceptT ε (Program sig) α}
    {next : α → ExceptT ε (Program sig) β}
    (hfirst : first.run.Guards allowed (Either fails middle) done)
    (hnext : ∀ done value, middle done value →
      (next value).run.Guards allowed (Either fails returns) done) :
    (first >>= next).run.Guards allowed (Either fails returns) done := by
  refine hfirst.bind fun done result hresult => ?_
  cases result with
  | error error => exact hresult
  | ok value => exact hnext done value hresult

/-! ## Two runs -/

namespace Program

/-- The calls of the one program and their answers have related counterparts in the other,
and both return the same. -/
def Mirrors (related : Event sig → Event sig → Prop) : Program sig α → Program sig α → Prop
  | .pure value, .pure other => value = other
  | .call op next, .call other rest =>
      ∀ reply, ∃ answer, related ⟨op, reply⟩ ⟨other, answer⟩ ∧
        Mirrors related (next reply) (rest answer)
  | .pure _, .call _ _ | .call _ _, .pure _ => False

variable {related : Event sig → Event sig → Prop}

theorem Mirrors.runs {program other : Program sig α} (hmirrors : Mirrors related program other)
    {trace : Trace sig} {value : α} (hrun : Runs program trace value) :
    ∃ reflection, List.Forall₂ related trace reflection ∧ Runs other reflection value := by
  induction hrun generalizing other with
  | pure value =>
      cases other with
      | pure other =>
          obtain rfl : value = other := hmirrors
          exact ⟨[], .nil, .pure value⟩
      | call op next => exact hmirrors.elim
  | call reply _ ih =>
      cases other with
      | pure other => exact hmirrors.elim
      | call op next =>
          obtain ⟨answer, hrelated, hnext⟩ := hmirrors reply
          obtain ⟨reflection, htrace, hruns⟩ := ih hnext
          exact ⟨⟨op, answer⟩ :: reflection, .cons hrelated htrace, .call answer hruns⟩

theorem Mirrors.refl (hrefl : ∀ event, related event event) (program : Program sig α) :
    Mirrors related program program := by
  induction program with
  | pure value => rfl
  | call op next ih => exact fun reply => ⟨reply, hrefl _, ih reply⟩

theorem Mirrors.bind {program other : Program sig α} {next rest : α → Program sig β}
    (hmirrors : Mirrors related program other)
    (hnext : ∀ value, Mirrors related (next value) (rest value)) :
    Mirrors related (program >>= next) (other >>= rest) := by
  induction program generalizing other with
  | pure value =>
      cases other with
      | pure other =>
          obtain rfl : value = other := hmirrors
          exact hnext value
      | call op next => exact hmirrors.elim
  | call op program ih =>
      cases other with
      | pure other => exact hmirrors.elim
      | call op' other =>
          intro reply
          obtain ⟨answer, hrelated, hrest⟩ := hmirrors reply
          exact ⟨answer, hrelated, ih reply hrest⟩

theorem Mirrors.bindExcept {first other : ExceptT ε (Program sig) α}
    {next rest : α → ExceptT ε (Program sig) β} (hfirst : Mirrors related first.run other.run)
    (hnext : ∀ value, Mirrors related (next value).run (rest value).run) :
    Mirrors related (first >>= next).run (other >>= rest).run := by
  refine hfirst.bind fun result => ?_
  cases result with
  | error error => rfl
  | ok value => exact hnext value

end Program

end Foundation.Effect
