import Mathlib.Algebra.BigOperators.Group.Finset.Piecewise
import Mathlib.Algebra.Ring.Nat
import Mathlib.Data.List.InsertIdx
import Mathlib.Data.List.Nodup

/-!
# Keys reserved by tasks

A set of reserved keys next to a list of running tasks, each of which works for
one key. A key is reserved before its task starts and released when the task
ends; in between the task advances in place. The two stay in step.
-/

namespace Foundation.Reservation

universe uKey uTask

variable {Key : Type uKey} {Task : Type uTask}

/-! ## The reservation set -/

section Keys

variable [DecidableEq Key]

def reserve (reserved : Key → Bool) (key : Key) : Key → Bool :=
  fun other => if other = key then true else reserved other

def release (reserved : Key → Bool) (key : Key) : Key → Bool :=
  fun other => if other = key then false else reserved other

theorem reserve_eq_true (reserved : Key → Bool) (key other : Key) :
    reserve reserved key other = true ↔ other = key ∨ reserved other = true := by
  unfold reserve
  split
  next hother => simp [hother]
  next hother => simp [hother]

theorem release_eq_true (reserved : Key → Bool) (key other : Key) :
    release reserved key other = true ↔ other ≠ key ∧ reserved other = true := by
  unfold release
  split
  next hother => simp [hother]
  next hother => simp [hother]

end Keys

/-! ## Quantities summed over tasks -/

section Sums

universe uAmount

variable {Amount : Type uAmount} [AddCommMonoid Amount] (amount : Task → Amount)

theorem sum_set {tasks : List Task} {index : Nat} {task : Task}
    (htask : tasks[index]? = some task) (next : Task) :
    ((tasks.set index next).map amount).sum + amount task =
      (tasks.map amount).sum + amount next := by
  induction tasks generalizing index with
  | nil => cases htask
  | cons head tail ih =>
      cases index with
      | zero =>
          cases htask
          simp only [List.set_cons_zero, List.map_cons, List.sum_cons]
          ac_rfl
      | succ index =>
          simp only [List.set_cons_succ, List.map_cons, List.sum_cons, add_assoc]
          rw [ih htask]

theorem sum_eraseIdx {tasks : List Task} {index : Nat} {task : Task}
    (htask : tasks[index]? = some task) :
    ((tasks.eraseIdx index).map amount).sum + amount task = (tasks.map amount).sum := by
  induction tasks generalizing index with
  | nil => cases htask
  | cons head tail ih =>
      cases index with
      | zero =>
          cases htask
          simp only [List.eraseIdx_cons_zero, List.map_cons, List.sum_cons]
          exact add_comm _ _
      | succ index =>
          simp only [List.eraseIdx_cons_succ, List.map_cons, List.sum_cons, add_assoc]
          rw [ih htask]

/-- When no two tasks share a key, what the tasks of one key add up to is bounded
by what each of them may be. -/
theorem sum_filter_le [DecidableEq Key] {keyOf : Task → Key} {tasks : List Task}
    (hnodup : (tasks.map keyOf).Nodup) {amount : Task → Nat} {key : Key} {bound : Nat}
    (hbound : ∀ task ∈ tasks, keyOf task = key → amount task ≤ bound) :
    ((tasks.filter fun task => keyOf task = key).map amount).sum ≤ bound := by
  induction tasks with
  | nil => exact Nat.zero_le bound
  | cons head tail ih =>
      obtain ⟨hhead, htail⟩ := List.nodup_cons.mp hnodup
      by_cases hkey : keyOf head = key
      · have hnone : tail.filter (fun task => keyOf task = key) = [] := by
          rw [List.filter_eq_nil_iff]
          intro task htask heq
          apply hhead
          rw [hkey, ← of_decide_eq_true heq]
          exact List.mem_map_of_mem htask
        simpa [hkey, hnone] using hbound head List.mem_cons_self hkey
      · simpa [hkey] using ih htail fun task htask => hbound task (List.mem_cons_of_mem _ htask)

/-- The tasks may be added up key by key. -/
theorem sum_eq_sum_keys [DecidableEq Key] {keyOf : Task → Key} {tasks : List Task}
    (amount : Task → Nat) {keys : Finset Key} (hkeys : ∀ task ∈ tasks, keyOf task ∈ keys) :
    (tasks.map amount).sum =
      ∑ key ∈ keys, ((tasks.filter fun task => keyOf task = key).map amount).sum := by
  induction tasks with
  | nil => simp
  | cons head tail ih =>
      have hhead : ∀ key, (((head :: tail).filter fun task => keyOf task = key).map amount).sum =
          (if keyOf head = key then amount head else 0) +
            ((tail.filter fun task => keyOf task = key).map amount).sum := by
        intro key
        by_cases hkey : keyOf head = key
        · simp [hkey]
        · simp [hkey]
      simp only [hhead, Finset.sum_add_distrib, Finset.sum_ite_eq,
        hkeys head List.mem_cons_self, if_true, List.map_cons, List.sum_cons]
      rw [ih fun task htask => hkeys task (List.mem_cons_of_mem _ htask)]

end Sums

/-! ## Tasks -/

theorem map_set_of_key {keyOf : Task → Key} {tasks : List Task} {index : Nat} {task next : Task}
    (htask : tasks[index]? = some task) (hkey : keyOf next = keyOf task) :
    (tasks.set index next).map keyOf = tasks.map keyOf := by
  rw [List.map_set, hkey]
  apply List.ext_getElem?
  intro other
  rw [List.getElem?_set]
  split
  next hother =>
    subst hother
    obtain ⟨hlt, hindex⟩ := List.getElem?_eq_some_iff.mp htask
    simp [hlt, hindex]
  next => rfl

theorem nodup_map_eraseIdx {keyOf : Task → Key} {tasks : List Task}
    (hnodup : (tasks.map keyOf).Nodup) (index : Nat) :
    ((tasks.eraseIdx index).map keyOf).Nodup :=
  ((List.eraseIdx_sublist tasks index).map keyOf).nodup hnodup

theorem mem_map_eraseIdx [DecidableEq Key] {keyOf : Task → Key} {tasks : List Task}
    (hnodup : (tasks.map keyOf).Nodup) {index : Nat} {task : Task}
    (htask : tasks[index]? = some task) (key : Key) :
    key ∈ (tasks.eraseIdx index).map keyOf ↔ key ≠ keyOf task ∧ key ∈ tasks.map keyOf := by
  obtain ⟨hlt, hindex⟩ := List.getElem?_eq_some_iff.mp htask
  have herase := hnodup.erase_getElem index (by simpa using hlt)
  rw [List.getElem_map, hindex] at herase
  rw [← List.eraseIdx_map, ← herase, hnodup.mem_erase_iff]

variable (keyOf : Task → Key)

/-- No two tasks share a key, and exactly the keys of the tasks are reserved. -/
structure SingleFlight (reserved : Key → Bool) (tasks : List Task) : Prop where
  nodup : (tasks.map keyOf).Nodup
  reserved_iff : ∀ key, reserved key = true ↔ key ∈ tasks.map keyOf

namespace SingleFlight

variable {keyOf} {reserved : Key → Bool} {tasks : List Task}

theorem nil (hreserved : ∀ key, reserved key = false) : SingleFlight keyOf reserved [] :=
  ⟨List.nodup_nil, fun key => by simp [hreserved key]⟩

/-- A task starts for a key that was not reserved. -/
theorem spawn [DecidableEq Key] (hflight : SingleFlight keyOf reserved tasks) (task : Task)
    (hfree : ¬ reserved (keyOf task) = true) :
    SingleFlight keyOf (reserve reserved (keyOf task)) (tasks ++ [task]) := by
  refine ⟨?_, fun key => ?_⟩
  · rw [List.map_append, List.nodup_append]
    refine ⟨hflight.nodup, List.nodup_singleton _, ?_⟩
    intro key hkey other hother heq
    rw [List.map_singleton, List.mem_singleton] at hother
    rw [hflight.reserved_iff, ← hother, ← heq] at hfree
    exact hfree hkey
  · rw [reserve_eq_true, hflight.reserved_iff, List.map_append, List.mem_append,
      List.map_singleton, List.mem_singleton]
    exact or_comm

/-- A task advances and keeps its key. -/
theorem advance (hflight : SingleFlight keyOf reserved tasks) {index : Nat} {task next : Task}
    (htask : tasks[index]? = some task) (hkey : keyOf next = keyOf task) :
    SingleFlight keyOf reserved (tasks.set index next) := by
  have hmap := map_set_of_key htask hkey
  exact ⟨hmap ▸ hflight.nodup, fun key => hmap ▸ hflight.reserved_iff key⟩

/-- A task ends and releases its key. -/
theorem finish [DecidableEq Key] (hflight : SingleFlight keyOf reserved tasks) {index : Nat}
    {task : Task} (htask : tasks[index]? = some task) :
    SingleFlight keyOf (release reserved (keyOf task)) (tasks.eraseIdx index) := by
  refine ⟨nodup_map_eraseIdx hflight.nodup index, fun key => ?_⟩
  rw [mem_map_eraseIdx hflight.nodup htask, release_eq_true, hflight.reserved_iff]

theorem countP_le_one [DecidableEq Key] (hflight : SingleFlight keyOf reserved tasks) (key : Key) :
    tasks.countP (fun task => keyOf task = key) ≤ 1 := by
  have hcount := List.nodup_iff_count_le_one.mp hflight.nodup key
  rw [List.count_eq_countP, List.countP_map] at hcount
  convert hcount using 2
  funext task
  exact (beq_eq_decide (keyOf task) key).symm

theorem reserved_iff_exists (hflight : SingleFlight keyOf reserved tasks) (key : Key) :
    reserved key = true ↔ ∃ task ∈ tasks, keyOf task = key :=
  (hflight.reserved_iff key).trans List.mem_map

theorem free_of_forall (hflight : SingleFlight keyOf reserved tasks) {key : Key}
    (hnone : ∀ task ∈ tasks, keyOf task ≠ key) : reserved key = false := by
  rw [← Bool.not_eq_true, hflight.reserved_iff_exists]
  rintro ⟨task, htask, hkey⟩
  exact hnone task htask hkey

theorem eq_of_mem (hflight : SingleFlight keyOf reserved tasks) {task task' : Task}
    (htask : task ∈ tasks) (htask' : task' ∈ tasks) (hkey : keyOf task = keyOf task') :
    task = task' :=
  List.inj_on_of_nodup_map hflight.nodup htask htask' hkey

end SingleFlight

end Foundation.Reservation
