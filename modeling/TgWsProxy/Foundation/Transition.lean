import Mathlib.Data.List.Induction

/-!
# Runs of a labelled transition system

A system has a start state and a partial step function: the label resolves
every choice of scheduler and environment, and a label that is not enabled has
no successor. A run is a list of labels all of which are enabled in turn. The
rules below turn a fact about single steps into a fact about every state that a
run visits.
-/

namespace Foundation.Transition

universe uState uLabel

structure System (State : Type uState) (Label : Type uLabel) where
  start : State
  step : State → Label → Option State

namespace System

variable {State : Type uState} {Label : Type uLabel} (sys : System State Label)

/-- The state after the given labels, if all of them were enabled. -/
def runFrom (state : State) : List Label → Option State
  | [] => some state
  | label :: labels => (sys.step state label).bind fun next => runFrom next labels

def run (labels : List Label) : Option State := sys.runFrom sys.start labels

theorem runFrom_append (state : State) (first second : List Label) :
    sys.runFrom state (first ++ second) =
      (sys.runFrom state first).bind fun next => sys.runFrom next second := by
  induction first generalizing state with
  | nil => rfl
  | cons label labels ih =>
      simp only [List.cons_append, runFrom]
      cases sys.step state label with
      | none => rfl
      | some next => exact ih next

/-- The run stands in `state` after some of its labels. -/
def Visits (labels : List Label) (state : State) : Prop :=
  ∃ before after, labels = before ++ after ∧ sys.run before = some state

/-- The run takes the step `label` in `state`. -/
def Takes (labels : List Label) (state : State) (label : Label) : Prop :=
  ∃ before after, labels = before ++ label :: after ∧ sys.run before = some state

/-- Every step of the run from `state` meets the condition. -/
def Along (holds : State → Label → Prop) (state : State) : List Label → Prop
  | [] => True
  | label :: labels => holds state label ∧
      ∀ next, sys.step state label = some next → Along holds next labels

theorem Along.nil {holds : State → Label → Prop} {state : State} : sys.Along holds state [] :=
  trivial

theorem Along.cons {holds : State → Label → Prop} {state next : State} {label : Label}
    {labels : List Label} (hholds : holds state label) (hstep : sys.step state label = some next)
    (halong : sys.Along holds next labels) : sys.Along holds state (label :: labels) := by
  refine ⟨hholds, fun other hother => ?_⟩
  rw [hstep] at hother
  cases hother
  exact halong

theorem Along.runFrom {holds : State → Label → Prop} {state middle : State}
    {before after : List Label} {label : Label}
    (halong : sys.Along holds state (before ++ label :: after))
    (hrun : sys.runFrom state before = some middle) : holds middle label := by
  induction before generalizing state with
  | nil =>
      cases hrun
      exact halong.1
  | cons first before ih =>
      obtain ⟨next, hstep, hrest⟩ := Option.bind_eq_some_iff.mp hrun
      exact ih (halong.2 next hstep) hrest

/-- A run keeps what its steps keep. -/
theorem runFrom_invariant {property : State → Prop}
    (hstep : ∀ state label next, sys.step state label = some next → property state →
      property next)
    {labels : List Label} {state final : State} (hstate : property state)
    (hrun : sys.runFrom state labels = some final) : property final := by
  induction labels generalizing state with
  | nil =>
      cases hrun
      exact hstate
  | cons label labels ih =>
      obtain ⟨next, hnext, hrest⟩ := Option.bind_eq_some_iff.mp hrun
      exact ih (hstep state label next hnext hstate) hrest

/-- Where a property enables every step and is kept by it, every run comes to its end. -/
theorem exists_runFrom {property : State → Prop}
    (hstep : ∀ state label, property state →
      ∃ next, sys.step state label = some next ∧ property next)
    (labels : List Label) {state : State} (hstate : property state) :
    ∃ final, sys.runFrom state labels = some final ∧ property final := by
  induction labels generalizing state with
  | nil => exact ⟨state, rfl, hstate⟩
  | cons label labels ih =>
      obtain ⟨next, hnext, hproperty⟩ := hstep state label hstate
      obtain ⟨final, hrun, hfinal⟩ := ih hproperty
      refine ⟨final, ?_, hfinal⟩
      rw [runFrom, hnext]
      exact hrun

/-- A run keeps what its steps keep as far as they meet a condition that all meet. -/
theorem Along.invariant {holds : State → Label → Prop} {property : State → Prop}
    (hstep : ∀ state label next, holds state label → sys.step state label = some next →
      property state → property next)
    {labels : List Label} {state final : State} (halong : sys.Along holds state labels)
    (hstate : property state) (hrun : sys.runFrom state labels = some final) : property final := by
  induction labels generalizing state with
  | nil =>
      cases hrun
      exact hstate
  | cons label labels ih =>
      obtain ⟨next, hnext, hrest⟩ := Option.bind_eq_some_iff.mp hrun
      exact ih (halong.2 next hnext) (hstep state label next halong.1 hnext hstate) hrest

theorem Along.takes {holds : State → Label → Prop} {labels : List Label}
    (halong : sys.Along holds sys.start labels) {state : State} {label : Label}
    (htakes : sys.Takes labels state label) : holds state label := by
  obtain ⟨before, after, rfl, hrun⟩ := htakes
  exact halong.runFrom sys hrun

theorem Takes.state {labels : List Label} {state : State} {label : Label}
    (htakes : sys.Takes labels state label) : sys.Visits labels state := by
  obtain ⟨before, after, hlabels, hbefore⟩ := htakes
  exact ⟨before, label :: after, hlabels, hbefore⟩

/-- The successor of a step that the run takes is visited. -/
theorem Takes.visits {labels : List Label} {state next : State} {label : Label}
    (htakes : sys.Takes labels state label) (hstep : sys.step state label = some next) :
    sys.Visits labels next := by
  obtain ⟨before, after, rfl, hbefore⟩ := htakes
  refine ⟨before ++ [label], after, by simp, ?_⟩
  unfold run at hbefore ⊢
  rw [runFrom_append, hbefore]
  simp [runFrom, hstep]

/-- What holds at the start, with no label behind, and is kept by every step that
the run takes holds at its end, with all labels behind. -/
theorem run_induct {labels : List Label} (property : List Label → State → Prop)
    (hstart : property [] sys.start)
    (hstep : ∀ before state label next, sys.run before = some state →
      sys.Takes labels state label → sys.step state label = some next →
      property before state → property (before ++ [label]) next)
    {state : State} (hrun : sys.run labels = some state) : property labels state := by
  suffices hbeginning : ∀ before after, labels = before ++ after →
      ∀ state, sys.run before = some state → property before state from
    hbeginning labels [] (List.append_nil labels).symm state hrun
  intro before
  induction before using List.reverseRecOn with
  | nil =>
      intro after _ state hrun
      cases hrun
      exact hstart
  | append_singleton before label ih =>
      intro after hlabels state hrun
      unfold run at hrun
      rw [runFrom_append] at hrun
      obtain ⟨previous, hprevious, hlast⟩ := Option.bind_eq_some_iff.mp hrun
      obtain ⟨next, hnext, heq⟩ := Option.bind_eq_some_iff.mp hlast
      cases heq
      have hlabels' : labels = before ++ label :: after := by simpa using hlabels
      exact hstep before previous label state hprevious ⟨before, after, hlabels', hprevious⟩ hnext
        (ih (label :: after) hlabels' previous hprevious)

/-- What holds at the start and is kept by every step that the run takes holds
in every state that the run visits. -/
theorem Visits.induct {labels : List Label} {property : State → Prop}
    (hstart : property sys.start)
    (hstep : ∀ state label next, sys.Takes labels state label →
      sys.step state label = some next → property state → property next)
    {state : State} (hvisits : sys.Visits labels state) : property state := by
  obtain ⟨before, after, hlabels, hbefore⟩ := hvisits
  refine sys.run_induct (fun _ state => property state) hstart ?_ hbefore
  rintro _ state label next _ ⟨first, rest, hsplit, hstate⟩ hnext
  exact hstep state label next ⟨first, rest ++ after, by simp [hlabels, hsplit], hstate⟩ hnext

/-- An invariant of all steps holds in every visited state. -/
theorem Visits.invariant {labels : List Label} {property : State → Prop}
    (hstart : property sys.start)
    (hstep : ∀ state label next, sys.step state label = some next → property state →
      property next)
    {state : State} (hvisits : sys.Visits labels state) : property state :=
  Visits.induct sys hstart (fun state label next _ => hstep state label next) hvisits

/-! ## Records of the past -/

section Record

universe uRecord

variable {Record : Type uRecord} (update : State → Label → State → Record → Record)

/-- The system with a record beside its state, which every step updates and none reads. -/
def recording (record : Record) : System (State × Record) Label where
  start := (sys.start, record)
  step state label :=
    (sys.step state.1 label).map fun next => (next, update state.1 label next state.2)

variable {sys update}

theorem exists_runFrom_recording (first : Record) {labels : List Label} {state final : State}
    (hrun : sys.runFrom state labels = some final) (record : Record) :
    ∃ last, (sys.recording update first).runFrom (state, record) labels = some (final, last) := by
  induction labels generalizing state record with
  | nil =>
      cases hrun
      exact ⟨record, rfl⟩
  | cons label labels ih =>
      obtain ⟨next, hnext, hrest⟩ := Option.bind_eq_some_iff.mp hrun
      obtain ⟨last, hlast⟩ := ih hrest (update state label next record)
      refine ⟨last, ?_⟩
      simp only [runFrom, recording, hnext, Option.map_some, Option.bind_some]
      exact hlast

/-- A run visits its states with a record of how it came there. -/
theorem Visits.recording {labels : List Label} {state : State} (hvisits : sys.Visits labels state)
    (first : Record) :
    ∃ record, (sys.recording update first).Visits labels (state, record) := by
  obtain ⟨before, after, hlabels, hrun⟩ := hvisits
  obtain ⟨record, hrecord⟩ := exists_runFrom_recording first hrun first
  exact ⟨record, before, after, hlabels, hrecord⟩

end Record

end System

end Foundation.Transition
