import TgWsProxy.Android.Model

/-!
# One worker at a time

Whatever the order of starts, stops and worker progress, at most one worker is alive
and the shim keeps its handle; a stop reaches it; and a start is accepted exactly when
the thread of the last worker has ended. The worker reports the end of its run before
its thread ends, so between the two a start is still refused.
-/

namespace TgWsProxy.Android

open Foundation.Transition

namespace WorkerPhase

variable {phase next : WorkerPhase} {event : WorkerEvent}

theorem advance_ne_finished (hadvance : phase.advance event = some next) : phase ≠ .finished := by
  rintro rfl
  simp [advance] at hadvance

/-- A receiver that is gone does not come back. -/
theorem advance_holdsReceiver (hadvance : phase.advance event = some next)
    (hholds : next.holdsReceiver = true) : phase.holdsReceiver = true := by
  cases phase with
  | building | serving => rfl
  | returned | woundDown | reported | finished =>
      cases event <;> simp [advance] at hadvance <;> subst hadvance <;> cases hholds

end WorkerPhase

namespace Shim

def Alive (shim : Shim) (id : Nat) : Prop := shim.isFinished id = false

def Busy (shim : Shim) : Prop := ∃ id, shim.state.thread = some id ∧ shim.Alive id

theorem alive_iff {shim : Shim} {id : Nat} :
    shim.Alive id ↔ ∃ worker, shim.workers[id]? = some worker ∧ worker.phase ≠ .finished := by
  unfold Alive isFinished
  cases shim.workers[id]? with
  | none => simp
  | some worker => simp

theorem alive_of_holdsReceiver {shim : Shim} {id : Nat} {worker : Worker}
    (hworker : shim.workers[id]? = some worker) (hholds : worker.phase.holdsReceiver = true) :
    shim.Alive id := by
  refine alive_iff.mpr ⟨worker, hworker, ?_⟩
  intro hfinished
  rw [hfinished] at hholds
  cases hholds

/-- The shim right after an accepted start. -/
def spawn (shim : Shim) : Shim :=
  { shim with
    state := ⟨some shim.workers.length, some shim.workers.length, false⟩
    workers := shim.workers ++ [⟨.building, false⟩] }

theorem spawn_worker {shim : Shim} {id : Nat} {worker : Worker}
    (hworker : shim.spawn.workers[id]? = some worker) :
    shim.workers[id]? = some worker ∨ id = shim.workers.length := by
  have hlt := (List.getElem?_eq_some_iff.mp hworker).1
  rw [spawn, List.length_append, List.length_singleton] at hlt
  rcases Nat.lt_succ_iff_lt_or_eq.mp hlt with hold | hnew
  · rw [spawn, List.getElem?_append_left hold] at hworker
    exact .inl hworker
  · exact .inr hnew

end Shim

variable {shim next : Shim} {outcome : StartOutcome}

/-! ## Steps -/

/-- The three ways a start ends. -/
inductive StartCases (shim : Shim) (outcome : StartOutcome) :
    Option (Except String Unit) × Shim → Prop
  | refused (message : String) (hrefused : shim.poisoned = true ∨ shim.Busy) :
      StartCases shim outcome (some (.error message), shim)
  | rejected {result : Option (Except String Unit)} (stopping poisoned : Bool)
      (hpoisoned : shim.poisoned = false) (hfree : ¬ shim.Busy) (hresult : result ≠ some (.ok ())) :
      StartCases shim outcome
        (result, { shim with state := { shim.state with thread := none, stopping }, poisoned })
  | accepted (hpoisoned : shim.poisoned = false) (hfree : ¬ shim.Busy)
      (houtcome : outcome = .spawned) :
      StartCases shim outcome (some (.ok ()), shim.spawn)

theorem reap_busy (hbusy : shim.Busy) : reap shim = shim.state := by
  obtain ⟨id, hthread, halive⟩ := hbusy
  unfold Shim.Alive at halive
  simp only [reap, hthread, halive, Bool.false_eq_true, if_false]

theorem reap_free (hfree : ¬ shim.Busy) :
    ∃ stopping, reap shim = { shim.state with thread := none, stopping } := by
  unfold reap
  cases hthread : shim.state.thread with
  | none =>
      refine ⟨shim.state.stopping, ?_⟩
      simp only [← hthread]
  | some id =>
      have hfinished : shim.isFinished id = true := by
        by_contra halive
        exact hfree ⟨id, hthread, (Bool.not_eq_true _).mp halive⟩
      simp only [hfinished, if_true]
      exact ⟨false, rfl⟩

theorem startProxy_cases (shim : Shim) (outcome : StartOutcome) :
    StartCases shim outcome (startProxy shim outcome) := by
  unfold startProxy
  split
  next hpoisoned => exact .refused _ (.inl hpoisoned)
  next hpoisoned =>
    rw [Bool.not_eq_true] at hpoisoned
    by_cases hbusy : shim.Busy
    · obtain ⟨id, hthread, -⟩ := id hbusy
      simp only [reap_busy hbusy, hthread, Option.isSome_some, if_true]
      exact .refused _ (.inr hbusy)
    · obtain ⟨stopping, hreap⟩ := reap_free hbusy
      simp only [hreap, Option.isSome_none, Bool.false_eq_true, if_false]
      cases outcome with
      | invalid message => exact .rejected stopping shim.poisoned hpoisoned hbusy (by simp)
      | panicked => exact .rejected stopping true hpoisoned hbusy (by simp)
      | spawnFailed error => exact .rejected stopping shim.poisoned hpoisoned hbusy (by simp)
      | spawned => exact .accepted hpoisoned hbusy rfl

/-- A worker after a stop: it has not moved, and the stop has been sent if the sender
was its own. -/
theorem stopProxy_worker {id : Nat} {after : Worker}
    (hafter : (stopProxy shim).workers[id]? = some after) :
    ∃ worker, shim.workers[id]? = some worker ∧ after.phase = worker.phase ∧
      (worker.shutdown = true → after.shutdown = true) ∧
      (shim.poisoned = false → shim.state.shutdown = some id →
        worker.phase.holdsReceiver = true → after.shutdown = true) := by
  unfold stopProxy at hafter
  split at hafter
  next hpoisoned =>
    refine ⟨after, hafter, rfl, fun hsent => hsent, ?_⟩
    intro hother
    rw [hpoisoned] at hother
    cases hother
  next =>
    cases hsender : shim.state.shutdown with
    | none =>
        rw [hsender] at hafter
        exact ⟨after, hafter, rfl, fun hsent => hsent, fun _ hnone => by cases hnone⟩
    | some sender =>
        rw [hsender] at hafter
        simp only [sendShutdown, List.getElem?_modify] at hafter
        obtain ⟨worker, hworker, rfl⟩ := Option.map_eq_some_iff.mp hafter
        refine ⟨worker, hworker, ?_⟩
        split
        next hsame =>
          split
          next => exact ⟨rfl, fun _ => rfl, fun _ _ _ => rfl⟩
          next hgone => exact ⟨rfl, fun hsent => hsent, fun _ _ hholds => (hgone hholds).elim⟩
        next hother =>
          refine ⟨rfl, fun hsent => hsent, fun _ hsame => ?_⟩
          exact (hother (Option.some.inj hsame)).elim

theorem stopProxy_length (shim : Shim) :
    (stopProxy shim).workers.length = shim.workers.length := by
  unfold stopProxy
  split
  next => rfl
  next =>
    cases shim.state.shutdown with
    | none => rfl
    | some sender => exact List.length_modify _ _ _

theorem stopProxy_thread (shim : Shim) : (stopProxy shim).state.thread = shim.state.thread := by
  unfold stopProxy
  split <;> rfl

theorem stopProxy_poisoned (shim : Shim) : (stopProxy shim).poisoned = shim.poisoned := by
  unfold stopProxy
  split <;> rfl

theorem alive_of_stopProxy {id : Nat} (halive : (stopProxy shim).Alive id) : shim.Alive id := by
  obtain ⟨after, hafter, hphase⟩ := Shim.alive_iff.mp halive
  obtain ⟨worker, hworker, hsame, -⟩ := stopProxy_worker hafter
  exact Shim.alive_iff.mpr ⟨worker, hworker, hsame ▸ hphase⟩

/-- The worker `id` has moved to another phase. -/
def Shim.moved (shim : Shim) (id : Nat) (worker : Worker) (phase : WorkerPhase) : Shim :=
  { shim with workers := shim.workers.set id { worker with phase } }

theorem work_eq_some {id : Nat} {event : WorkerEvent}
    (hstep : shimStep shim (.work id event) = some next) :
    ∃ worker phase, shim.workers[id]? = some worker ∧
      worker.phase.advance event = some phase ∧ next = shim.moved id worker phase := by
  simp only [shimStep] at hstep
  split at hstep
  next worker hworker =>
    obtain ⟨phase, hadvance, rfl⟩ := Option.map_eq_some_iff.mp hstep
    exact ⟨worker, phase, hworker, hadvance, rfl⟩
  next => cases hstep

section Moved

variable {id other : Nat} {worker after : Worker} {phase : WorkerPhase} {event : WorkerEvent}

theorem moved_worker (hworker : shim.workers[id]? = some worker)
    (hadvance : worker.phase.advance event = some phase)
    (hafter : (shim.moved id worker phase).workers[other]? = some after) :
    ∃ before, shim.workers[other]? = some before ∧ after.shutdown = before.shutdown ∧
      (after.phase.holdsReceiver = true → before.phase.holdsReceiver = true) := by
  rw [Shim.moved, List.getElem?_set] at hafter
  split at hafter
  next hsame =>
    subst hsame
    split at hafter
    next =>
      cases hafter
      exact ⟨worker, hworker, rfl, WorkerPhase.advance_holdsReceiver hadvance⟩
    next => cases hafter
  next => exact ⟨after, hafter, rfl, fun hholds => hholds⟩

theorem alive_of_moved (hworker : shim.workers[id]? = some worker)
    (hadvance : worker.phase.advance event = some phase)
    (halive : (shim.moved id worker phase).Alive other) : shim.Alive other := by
  obtain ⟨after, hafter, hphase⟩ := Shim.alive_iff.mp halive
  by_cases hsame : id = other
  · subst hsame
    exact Shim.alive_iff.mpr ⟨worker, hworker, WorkerPhase.advance_ne_finished hadvance⟩
  · rw [Shim.moved, List.getElem?_set_ne hsame] at hafter
    exact Shim.alive_iff.mpr ⟨after, hafter, hphase⟩

end Moved

/-! ## The invariant -/

structure OneWorker (shim : Shim) : Prop where
  handle : ∀ id, shim.Alive id → shim.state.thread = some id
  latest : ∀ id, shim.state.thread = some id → id + 1 = shim.workers.length
  /-- A worker can still be told to stop, or has been. -/
  reachable : ∀ id worker, shim.workers[id]? = some worker → worker.phase.holdsReceiver = true →
    shim.state.shutdown = some id ∨ worker.shutdown = true
  idle_of_poisoned : shim.poisoned = true → ∀ id, ¬ shim.Alive id

namespace OneWorker

theorem start_state : OneWorker shimSystem.start where
  handle id halive := by
    obtain ⟨worker, hworker, -⟩ := Shim.alive_iff.mp halive
    cases hworker
  latest id hthread := by cases hthread
  reachable id worker hworker := by cases hworker
  idle_of_poisoned hpoisoned := by cases hpoisoned

/-- Without a busy handle no worker is alive. -/
theorem idle (hone : OneWorker shim) (hfree : ¬ shim.Busy) (id : Nat) : ¬ shim.Alive id :=
  fun halive => hfree ⟨id, hone.handle id halive, halive⟩

theorem spawn (hone : OneWorker shim) (hpoisoned : shim.poisoned = false)
    (hfree : ¬ shim.Busy) : OneWorker shim.spawn where
  handle id halive := by
    obtain ⟨worker, hworker, hphase⟩ := Shim.alive_iff.mp halive
    rcases Shim.spawn_worker hworker with hold | rfl
    · exact (hone.idle hfree id (Shim.alive_iff.mpr ⟨worker, hold, hphase⟩)).elim
    · rfl
  latest id hthread := by
    cases hthread
    rw [Shim.spawn, List.length_append, List.length_singleton]
  reachable id worker hworker hholds := by
    rcases Shim.spawn_worker hworker with hold | rfl
    · exact (hone.idle hfree id (Shim.alive_of_holdsReceiver hold hholds)).elim
    · exact .inl rfl
  idle_of_poisoned htrue := by
    rw [Shim.spawn, hpoisoned] at htrue
    cases htrue

theorem startProxy (hone : OneWorker shim) (outcome : StartOutcome) :
    OneWorker (startProxy shim outcome).2 := by
  have hcases := startProxy_cases shim outcome
  generalize Android.startProxy shim outcome = started at hcases
  cases hcases with
  | refused message hrefused => exact hone
  | rejected stopping poisoned hpoisoned hfree hresult =>
      have hidle := hone.idle hfree
      refine ⟨fun id halive => (hidle id halive).elim, ?_, hone.reachable, fun _ => hidle⟩
      intro id hthread
      cases hthread
  | accepted hpoisoned hfree houtcome => exact hone.spawn hpoisoned hfree

theorem stopProxy (hone : OneWorker shim) : OneWorker (stopProxy shim) where
  handle id halive := by
    rw [stopProxy_thread]
    exact hone.handle id (alive_of_stopProxy halive)
  latest id hthread := by
    rw [stopProxy_thread] at hthread
    rw [stopProxy_length]
    exact hone.latest id hthread
  reachable id after hafter hholds := by
    obtain ⟨worker, hworker, hphase, hkept, hsent⟩ := stopProxy_worker hafter
    rw [hphase] at hholds
    rcases hone.reachable id worker hworker hholds with hsender | hsignalled
    · refine .inr (hsent ?_ hsender hholds)
      by_contra hpoisoned
      rw [Bool.not_eq_false] at hpoisoned
      exact hone.idle_of_poisoned hpoisoned id (Shim.alive_of_holdsReceiver hworker hholds)
    · exact .inr (hkept hsignalled)
  idle_of_poisoned hpoisoned id halive := by
    rw [stopProxy_poisoned] at hpoisoned
    exact hone.idle_of_poisoned hpoisoned id (alive_of_stopProxy halive)

theorem work (hone : OneWorker shim) {id : Nat} {worker : Worker} {event : WorkerEvent}
    {phase : WorkerPhase} (hworker : shim.workers[id]? = some worker)
    (hadvance : worker.phase.advance event = some phase) :
    OneWorker (shim.moved id worker phase) where
  handle other halive := hone.handle other (alive_of_moved hworker hadvance halive)
  latest other hthread := by
    rw [Shim.moved, List.length_set]
    exact hone.latest other hthread
  reachable other after hafter hholds := by
    obtain ⟨before, hbefore, hshutdown, hheld⟩ := moved_worker hworker hadvance hafter
    rw [hshutdown]
    exact hone.reachable other before hbefore (hheld hholds)
  idle_of_poisoned hpoisoned other halive :=
    hone.idle_of_poisoned hpoisoned other (alive_of_moved hworker hadvance halive)

theorem step (hone : OneWorker shim) {label : ShimLabel}
    (hstep : shimStep shim label = some next) : OneWorker next := by
  cases label with
  | start outcome =>
      cases hstep
      exact hone.startProxy outcome
  | stop =>
      cases hstep
      exact hone.stopProxy
  | isRunning =>
      cases hstep
      exact hone
  | work id event =>
      obtain ⟨worker, phase, hworker, hadvance, rfl⟩ := work_eq_some hstep
      exact hone.work hworker hadvance

theorem run {labels : List ShimLabel} (hrun : shimSystem.run labels = some shim) :
    OneWorker shim :=
  System.runFrom_invariant shimSystem (fun _ _ _ hstep hone => hone.step hstep) start_state hrun

end OneWorker

/-! ## After a stop -/

/-- The worker has been told to stop, if it can still be told anything. -/
def Told (shim : Shim) (id : Nat) : Prop :=
  ∀ worker, shim.workers[id]? = some worker → worker.phase.holdsReceiver = true →
    worker.shutdown = true

theorem told_stopProxy (hone : OneWorker shim) (id : Nat) : Told (stopProxy shim) id := by
  intro after hafter hholds
  rcases hone.stopProxy.reachable id after hafter hholds with hsender | hsent
  · -- A sender that survives the call belongs to a poisoned shim, where no worker is alive.
    unfold stopProxy at hsender
    split at hsender
    next hpoisoned =>
      have halive := alive_of_stopProxy (Shim.alive_of_holdsReceiver hafter hholds)
      exact (hone.idle_of_poisoned hpoisoned id halive).elim
    next => cases hsender
  · exact hsent

theorem Told.step {id : Nat} {label : ShimLabel} (htold : Told shim id)
    (hid : id < shim.workers.length) (hstep : shimStep shim label = some next) :
    Told next id ∧ id < next.workers.length := by
  cases label with
  | start outcome =>
      cases hstep
      have hcases := startProxy_cases shim outcome
      generalize startProxy shim outcome = started at hcases
      cases hcases with
      | refused => exact ⟨htold, hid⟩
      | rejected => exact ⟨htold, hid⟩
      | accepted =>
          refine ⟨?_, ?_⟩
          · intro worker hworker hholds
            rcases Shim.spawn_worker hworker with hold | rfl
            · exact htold worker hold hholds
            · exact (Nat.lt_irrefl _ hid).elim
          · rw [Shim.spawn, List.length_append]
            exact Nat.lt_add_right _ hid
  | stop =>
      cases hstep
      refine ⟨?_, by rwa [stopProxy_length]⟩
      intro after hafter hholds
      obtain ⟨worker, hworker, hphase, hkept, -⟩ := stopProxy_worker hafter
      rw [hphase] at hholds
      exact hkept (htold worker hworker hholds)
  | isRunning =>
      cases hstep
      exact ⟨htold, hid⟩
  | work other event =>
      obtain ⟨worker, phase, hworker, hadvance, rfl⟩ := work_eq_some hstep
      refine ⟨?_, by rwa [Shim.moved, List.length_set]⟩
      intro after hafter hholds
      obtain ⟨before, hbefore, hshutdown, hheld⟩ := moved_worker hworker hadvance hafter
      rw [hshutdown]
      exact htold before hbefore (hheld hholds)

/-- `nativeIsRunning` answers false, and goes on to until a start is accepted. -/
def Halted (shim : Shim) : Prop :=
  shim.poisoned = true ∨ shim.state.stopping = true ∨ shim.state.thread = none

theorem Halted.nativeIsRunning (hhalted : Halted shim) : nativeIsRunning shim = false := by
  unfold Android.nativeIsRunning
  rcases hhalted with hpoisoned | hstopping | hthread
  · rw [hpoisoned, if_pos rfl]
  · rw [hstopping, Bool.not_true, Bool.false_and, ite_self]
  · rw [hthread, Option.any_none, Bool.and_false, ite_self]

theorem halted_stopProxy (shim : Shim) : Halted (stopProxy shim) := by
  unfold stopProxy
  split
  next hpoisoned => exact .inl hpoisoned
  next => exact .inr (.inl rfl)

/-- The start is accepted. -/
def Accepts (shim : Shim) (outcome : StartOutcome) : Prop :=
  (startProxy shim outcome).1 = some (.ok ())

theorem Halted.step {label : ShimLabel} (hhalted : Halted shim)
    (hrejected : ∀ outcome, label = .start outcome → ¬ Accepts shim outcome)
    (hstep : shimStep shim label = some next) : Halted next := by
  cases label with
  | start outcome =>
      cases hstep
      have hcases := startProxy_cases shim outcome
      have hnot := hrejected outcome rfl
      unfold Accepts at hnot
      generalize startProxy shim outcome = started at hcases hnot
      cases hcases with
      | refused => exact hhalted
      | rejected => exact .inr (.inr rfl)
      | accepted => exact (hnot rfl).elim
  | stop =>
      cases hstep
      exact halted_stopProxy shim
  | isRunning =>
      cases hstep
      exact hhalted
  | work id event =>
      obtain ⟨worker, phase, -, -, rfl⟩ := work_eq_some hstep
      exact hhalted

theorem run_after_stop {before after : List ShimLabel} {earlier : Shim}
    (hbefore : shimSystem.run before = some earlier)
    (hrun : shimSystem.run (before ++ .stop :: after) = some shim) :
    shimSystem.runFrom (stopProxy earlier) after = some shim := by
  unfold System.run at hbefore hrun
  rw [System.runFrom_append, hbefore] at hrun
  exact hrun

/-! ## The start behind a running worker -/

/-- The run accepted the start of the worker `id` and has not been stopped since. -/
def StartedBy (labels : List ShimLabel) (id : Nat) : Prop :=
  ∃ before outcome after earlier, labels = before ++ .start outcome :: after ∧
    shimSystem.run before = some earlier ∧ Accepts earlier outcome ∧
    id = earlier.workers.length ∧ .stop ∉ after

theorem StartedBy.concat {labels : List ShimLabel} {id : Nat} (hstarted : StartedBy labels id)
    {label : ShimLabel} (hlabel : label ≠ .stop) : StartedBy (labels ++ [label]) id := by
  obtain ⟨before, outcome, after, earlier, rfl, hrun, haccepts, hid, hafter⟩ := hstarted
  refine ⟨before, outcome, after ++ [label], earlier, by simp, hrun, haccepts, hid, ?_⟩
  intro hmem
  rcases List.mem_append.mp hmem with hmem | hmem
  · exact hafter hmem
  · exact hlabel (List.mem_singleton.mp hmem).symm

theorem startedBy_of_thread {labels : List ShimLabel} (hrun : shimSystem.run labels = some shim)
    (hpoisoned : shim.poisoned = false) (hstopping : shim.state.stopping = false) {id : Nat}
    (hthread : shim.state.thread = some id) : StartedBy labels id := by
  -- Along the run: a handle that is not being stopped is that of the last accepted start.
  refine shimSystem.run_induct (fun labels shim => shim.poisoned = false →
    shim.state.stopping = false → ∀ id, shim.state.thread = some id → StartedBy labels id)
    (by rintro _ _ id ⟨⟩) ?_ hrun hpoisoned hstopping id hthread
  intro before shim label next hbefore _ hstep ih hpoisoned hstopping id hthread
  cases label with
  | start outcome =>
      cases hstep
      have hcases := startProxy_cases shim outcome
      have haccepts : Accepts shim outcome ↔ (startProxy shim outcome).1 = some (.ok ()) := Iff.rfl
      generalize startProxy shim outcome = started at hcases hpoisoned hstopping hthread haccepts
      cases hcases with
      | refused =>
          exact (ih hpoisoned hstopping id hthread).concat (by rintro ⟨⟩)
      | rejected => cases hthread
      | accepted =>
          cases hthread
          exact ⟨before, outcome, [], shim, rfl, hbefore, haccepts.mpr rfl, rfl,
            List.not_mem_nil⟩
  | stop =>
      cases hstep
      rcases halted_stopProxy shim with htrue | htrue | hnone
      · rw [htrue] at hpoisoned
        cases hpoisoned
      · rw [htrue] at hstopping
        cases hstopping
      · rw [hnone] at hthread
        cases hthread
  | isRunning =>
      cases hstep
      exact (ih hpoisoned hstopping id hthread).concat (by rintro ⟨⟩)
  | work other event =>
      obtain ⟨worker, phase, -, -, rfl⟩ := work_eq_some hstep
      exact (ih hpoisoned hstopping id hthread).concat (by rintro ⟨⟩)

/-! ## The shim over whole runs -/

/-- One worker at a time, over every run: who is alive, what a stop reaches, what
`nativeIsRunning` answers, and what a start that is not accepted leaves alone. -/
theorem one_worker_at_a_time {labels : List ShimLabel}
    (hrun : shimSystem.run labels = some shim) :
    (∀ id, shim.Alive id → shim.state.thread = some id) ∧
    (∀ first second, shim.Alive first → shim.Alive second → first = second) ∧
    (∀ before after earlier, labels = before ++ .stop :: after →
      shimSystem.run before = some earlier → ∀ id < earlier.workers.length, ∀ worker,
        shim.workers[id]? = some worker → worker.phase.holdsReceiver = true →
        shim.shutdownCompletes id worker = true) ∧
    (nativeIsRunning shim = true → ∃ id, shim.Alive id ∧ StartedBy labels id) ∧
    (∀ before after earlier, labels = before ++ .stop :: after →
      shimSystem.run before = some earlier →
      shimSystem.Along (fun state label => ∀ outcome, label = .start outcome →
        ¬ Accepts state outcome) (stopProxy earlier) after →
      nativeIsRunning shim = false) ∧
    (∀ outcome, ¬ Accepts shim outcome →
      (startProxy shim outcome).2.workers = shim.workers ∧
      (startProxy shim outcome).2.state.shutdown = shim.state.shutdown ∧
      ∀ id, shim.Alive id → (startProxy shim outcome).2 = shim) := by
  have hone := OneWorker.run hrun
  refine ⟨hone.handle, ?_, ?_, ?_, ?_, ?_⟩
  · intro first second hfirst hsecond
    exact Option.some.inj ((hone.handle first hfirst).symm.trans (hone.handle second hsecond))
  · rintro before after earlier rfl hbefore id hid worker hworker hholds
    have hrest := run_after_stop hbefore hrun
    have htold := shimSystem.runFrom_invariant
      (fun state label next hstep hstate => Told.step hstate.1 hstate.2 hstep)
      (⟨told_stopProxy (OneWorker.run hbefore) id, by rwa [stopProxy_length]⟩ :
        Told (stopProxy earlier) id ∧ id < (stopProxy earlier).workers.length) hrest
    rw [Shim.shutdownCompletes, htold.1 worker hworker hholds, Bool.true_or]
  · intro hrunning
    unfold nativeIsRunning at hrunning
    split at hrunning
    next => cases hrunning
    next hpoisoned =>
      obtain ⟨hstopping, hany⟩ := Bool.and_eq_true_iff.mp hrunning
      obtain ⟨id, hthread, halive⟩ := (Option.any_eq_true _ _).mp hany
      exact ⟨id, (Bool.not_eq_true' _).mp halive, startedBy_of_thread hrun
        ((Bool.not_eq_true _).mp hpoisoned) ((Bool.not_eq_true' _).mp hstopping) hthread⟩
  · rintro before after earlier rfl hbefore halong
    refine Halted.nativeIsRunning ?_
    exact System.Along.invariant shimSystem
      (fun state label next hrejected hstep hhalted => Halted.step hhalted hrejected hstep)
      halong (halted_stopProxy earlier) (run_after_stop hbefore hrun)
  · intro outcome hnot
    have hcases := startProxy_cases shim outcome
    unfold Accepts at hnot
    generalize startProxy shim outcome = started at hcases hnot
    cases hcases with
    | refused => exact ⟨rfl, rfl, fun _ _ => rfl⟩
    | rejected stopping poisoned hpoisoned hfree =>
        exact ⟨rfl, rfl, fun id halive => (hone.idle hfree id halive).elim⟩
    | accepted => exact (hnot rfl).elim

/-- A run with a live worker that was stopped once. -/
theorem one_worker_at_a_time_stopped_once :
    ∃ shim, shimSystem.run [.start .spawned, .work 0 .runtimeBuilt, .stop, .start .spawned] =
        some shim ∧ shim.Alive 0 ∧ shim.state.thread = some 0 ∧ nativeIsRunning shim = false := by
  refine ⟨_, rfl, rfl, ?_, ?_⟩
  · exact (@one_worker_at_a_time _ [.start .spawned, .work 0 .runtimeBuilt, .stop,
      .start .spawned] rfl).1 0 rfl
  · refine (@one_worker_at_a_time _ [.start .spawned, .work 0 .runtimeBuilt, .stop,
      .start .spawned] rfl).2.2.2.2.1 [.start .spawned, .work 0 .runtimeBuilt] [.start .spawned] _
        rfl rfl ⟨?_, fun _ _ => trivial⟩
    rintro outcome ⟨⟩
    change some (Except.error "proxy is still stopping, try again in a moment") ≠ some (.ok ())
    rintro ⟨⟩

/-! ## Startable again -/

theorem startProxy_busy (hpoisoned : shim.poisoned = false) (hbusy : shim.Busy)
    (outcome : StartOutcome) :
    (startProxy shim outcome).1 = some (.error
      (if shim.state.stopping then "proxy is still stopping, try again in a moment"
      else "proxy is already running")) := by
  obtain ⟨id, hthread, -⟩ := id hbusy
  simp only [startProxy, hpoisoned, reap_busy hbusy, hthread, Option.isSome_some, if_true,
    Bool.false_eq_true, if_false]

theorem startProxy_free (hpoisoned : shim.poisoned = false) (hfree : ¬ shim.Busy) :
    Accepts shim .spawned := by
  obtain ⟨stopping, hreap⟩ := reap_free hfree
  simp only [Accepts, startProxy, hpoisoned, hreap, Option.isSome_none, Bool.false_eq_true,
    if_false]

/-- The shim is busy as long as the last worker has not ended. -/
theorem OneWorker.busy_iff (hone : OneWorker shim) {worker : Worker}
    (hlast : shim.workers.getLast? = some worker) : shim.Busy ↔ worker.phase ≠ .finished := by
  rw [List.getLast?_eq_getElem?] at hlast
  constructor
  · rintro ⟨id, hthread, halive⟩
    obtain ⟨other, hother, hphase⟩ := Shim.alive_iff.mp halive
    have hid : shim.workers.length - 1 = id := by
      have hlatest := hone.latest id hthread
      omega
    rw [hid, hother] at hlast
    cases hlast
    exact hphase
  · intro hphase
    have halive := Shim.alive_iff.mpr ⟨worker, hlast, hphase⟩
    exact ⟨_, hone.handle _ halive, halive⟩

/-- A start is refused for the worker that was started last exactly as long as its
thread has not ended, whether it has reported the end of its run or not. -/
theorem start_refused_iff_thread_alive {labels : List ShimLabel} {worker : Worker}
    (hrun : shimSystem.run labels = some shim) (hlast : shim.workers.getLast? = some worker) :
    ((startProxy shim .spawned).1 = some (.error "proxy is already running") ∨
      (startProxy shim .spawned).1 =
        some (.error "proxy is still stopping, try again in a moment") ↔
      worker.phase ≠ .finished) ∧
    (shim.poisoned = false → worker.phase = .finished → Accepts shim .spawned) := by
  have hone := OneWorker.run hrun
  rw [← hone.busy_iff hlast]
  refine ⟨⟨?_, ?_⟩, ?_⟩
  · intro hrefused
    by_contra hfree
    cases hpoisoned : shim.poisoned with
    | true =>
        simp only [startProxy, hpoisoned, if_true] at hrefused
        rcases hrefused with hrefused | hrefused <;> revert hrefused <;> decide
    | false =>
        rw [startProxy_free hpoisoned hfree] at hrefused
        rcases hrefused with hrefused | hrefused <;> cases hrefused
  · intro hbusy
    obtain ⟨id, -, halive⟩ := id hbusy
    have hpoisoned : shim.poisoned = false := by
      by_contra hpoisoned
      exact hone.idle_of_poisoned ((Bool.not_eq_false _).mp hpoisoned) id halive
    rw [startProxy_busy hpoisoned hbusy]
    cases shim.state.stopping with
    | true => exact .inr rfl
    | false => exact .inl rfl
  · intro hpoisoned hfinished
    exact startProxy_free hpoisoned fun hbusy => (hone.busy_iff hlast).mp hbusy hfinished

theorem start_refused_iff_thread_alive_after_end :
    ∃ shim, shimSystem.run [.start .spawned, .work 0 .runtimeBuilt, .stop,
        .work 0 (.runReturned true), .work 0 .shutdownTimeout, .work 0 .report,
        .work 0 .threadEnd] = some shim ∧
      shim.workers.getLast? = some ⟨.finished, true⟩ ∧ Accepts shim .spawned := by
  refine ⟨_, rfl, rfl, ?_⟩
  exact (@start_refused_iff_thread_alive _ [.start .spawned, .work 0 .runtimeBuilt, .stop,
    .work 0 (.runReturned true), .work 0 .shutdownTimeout, .work 0 .report, .work 0 .threadEnd]
      _ rfl rfl).2 rfl rfl

/-- The worker has reported, after a stop or a failure of its own, and a start with valid
arguments is still refused. -/
theorem reported_worker_refuses_start :
    (∃ shim, shimSystem.run [.start .spawned, .work 0 .runtimeBuilt, .work 0 .emitListening, .stop,
        .work 0 (.runReturned true), .work 0 .shutdownTimeout, .work 0 .report] = some shim ∧
      shim.workers = [⟨.reported, true⟩] ∧
      (startProxy shim .spawned).1 =
        some (.error "proxy is still stopping, try again in a moment")) ∧
    ∃ shim, shimSystem.run [.start .spawned, .work 0 .runtimeBuilt, .work 0 (.runReturned false),
        .work 0 .shutdownTimeout, .work 0 .report] = some shim ∧
      shim.workers = [⟨.reported, false⟩] ∧
      (startProxy shim .spawned).1 = some (.error "proxy is already running") :=
  ⟨⟨_, rfl, rfl, rfl⟩, ⟨_, rfl, rfl, rfl⟩⟩

end TgWsProxy.Android
