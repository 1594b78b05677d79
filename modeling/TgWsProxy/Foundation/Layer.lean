import TgWsProxy.Foundation.Effect

/-!
# Layers of programs

The operations of a program may themselves be carried out by programs, over a signature
below. A run of the whole is a run of the upper program with a run below behind each of its
calls, so what is known of the two layers holds of the whole.
-/

namespace Foundation.Effect

open Program (Runs runs_bind_iff)

variable {upper lower left right : Signature} {α : Type}

/-- The program with each of its operations carried out below. -/
def Program.link (carry : (op : upper.Op) → Program lower (upper.Reply op)) :
    Program upper α → Program lower α
  | .pure value => .pure value
  | .call op next => carry op >>= fun reply => (next reply).link carry

/-- The calls below, one run for each call above. -/
inductive Carried (carry : (op : upper.Op) → Program lower (upper.Reply op)) :
    Trace upper → Trace lower → Prop
  | nil : Carried carry [] []
  | cons {event : Event upper} {trace : Trace upper} {part rest : Trace lower}
      (hpart : Runs (carry event.op) part event.reply) (hrest : Carried carry trace rest) :
      Carried carry (event :: trace) (part ++ rest)

section Link

variable {carry : (op : upper.Op) → Program lower (upper.Reply op)}

theorem runs_link_iff {program : Program upper α} {calls : Trace lower} {value : α} :
    Runs (program.link carry) calls value ↔
      ∃ trace, Runs program trace value ∧ Carried carry trace calls := by
  constructor
  · intro hrun
    induction program generalizing calls with
    | pure value =>
        cases hrun
        exact ⟨[], .pure _, .nil⟩
    | call op next ih =>
        obtain ⟨part, rest, reply, rfl, hpart, hrest⟩ := runs_bind_iff.mp hrun
        obtain ⟨trace, hnext, hcarried⟩ := ih reply hrest
        exact ⟨⟨op, reply⟩ :: trace, .call reply hnext, .cons hpart hcarried⟩
  · rintro ⟨trace, hrun, hcarried⟩
    induction hrun generalizing calls with
    | pure value =>
        cases hcarried
        exact .pure value
    | call reply _ ih =>
        cases hcarried with
        | cons hpart hrest => exact .bind hpart (ih hrest)

theorem Carried.of_append {first second : Trace upper} {calls : Trace lower}
    (hcarried : Carried carry (first ++ second) calls) :
    ∃ before after, calls = before ++ after ∧ Carried carry first before ∧
      Carried carry second after := by
  induction first generalizing calls with
  | nil => exact ⟨[], calls, rfl, .nil, hcarried⟩
  | cons event first ih =>
      cases hcarried with
      | cons hpart hrest =>
          obtain ⟨before, after, rfl, hbefore, hafter⟩ := ih hrest
          exact ⟨_, after, (List.append_assoc _ before after).symm, .cons hpart hbefore, hafter⟩

end Link

/-! ## The two sides of a sum -/

def lefts (trace : Trace (left.sum right)) : Trace left :=
  trace.filterMap fun
    | ⟨.inl op, reply⟩ => some ⟨op, reply⟩
    | ⟨.inr _, _⟩ => none

def rights (trace : Trace (left.sum right)) : Trace right :=
  trace.filterMap fun
    | ⟨.inl _, _⟩ => none
    | ⟨.inr op, reply⟩ => some ⟨op, reply⟩

@[simp] theorem lefts_append (first second : Trace (left.sum right)) :
    lefts (first ++ second) = lefts first ++ lefts second := List.filterMap_append

@[simp] theorem rights_append (first second : Trace (left.sum right)) :
    rights (first ++ second) = rights first ++ rights second := List.filterMap_append

theorem Carried.rights_eq_nil
    {carry : (op : upper.Op) → Program (left.sum right) (upper.Reply op)} {trace : Trace upper}
    {calls : Trace (left.sum right)} (hcarried : Carried carry trace calls)
    (hquiet : ∀ event ∈ trace, ∀ part, Runs (carry event.op) part event.reply → rights part = []) :
    rights calls = [] := by
  induction hcarried with
  | nil => rfl
  | cons hpart _ ih =>
      obtain ⟨hevent, htrace⟩ := List.forall_mem_cons.mp hquiet
      rw [rights_append, hevent _ hpart, ih htrace, List.append_nil]

/-- An operation of the first signature that is passed on as it is. -/
theorem Program.Runs.of_perform_inl {op : left.Op} {trace : Trace (left.sum right)}
    {reply : left.Reply op}
    (hrun : Runs (@Program.perform (left.sum right) (.inl op)) trace reply) :
    lefts trace = [⟨op, reply⟩] ∧ rights trace = [] := by
  cases hrun with
  | call reply hnext =>
      cases hnext
      exact ⟨rfl, rfl⟩

/-- A program over the second signature leaves the first one alone. -/
theorem Program.Runs.of_inr {program : Program right α} {trace : Trace (left.sum right)} {value : α}
    (hrun : Runs (program.inr : Program (left.sum right) α) trace value) :
    lefts trace = [] ∧ Runs program (rights trace) value := by
  induction program generalizing trace with
  | pure value =>
      cases hrun
      exact ⟨rfl, .pure _⟩
  | call op next ih =>
      cases hrun with
      | call reply hnext =>
          obtain ⟨hlefts, hrights⟩ := ih reply hnext
          exact ⟨hlefts, @Runs.call right α op next reply _ _ hrights⟩

end Foundation.Effect
