import Mathlib.Data.Multiset.Count
import Mathlib.Data.Multiset.AddSub
import Mathlib.Logic.Relation
import TgWsProxy.Foundation.Transition

/-!
# Who holds a pooled resource

Resources are numbered in the order in which they are opened. A resource is
opened for a key, may wait in the pool of that key, and ends with a borrower of
the key or is dropped. An inventory lists the resources at each of these places;
it is located by an assignment of one place to every resource. The moves of an
inventory keep it so, and take every resource forward along its life only.
-/

namespace Foundation.Custody

universe uKey

variable {Key : Type uKey}

inductive Place (Key : Type uKey)
  | unopened
  | opened (key : Key)
  | pooled (key : Key)
  | lent (key : Key)
  | dropped
  deriving DecidableEq

/-- One move of a resource; its key never changes. -/
inductive Place.Follows : Place Key → Place Key → Prop
  | opened (key : Key) : Follows .unopened (.opened key)
  | lentAtOnce (key : Key) : Follows .unopened (.lent key)
  | pooled (key : Key) : Follows (.opened key) (.pooled key)
  | surplus (key : Key) : Follows (.opened key) .dropped
  | lent (key : Key) : Follows (.pooled key) (.lent key)
  | evicted (key : Key) : Follows (.pooled key) .dropped

theorem Place.Follows.ne {before after : Place Key} (hfollows : before.Follows after) :
    before ≠ after := by
  intro heq
  subst heq
  cases hfollows

theorem Place.Follows.ne_dropped {before after : Place Key} (hfollows : before.Follows after) :
    before ≠ .dropped := by
  cases hfollows <;> exact fun heq => nomatch heq

/-- Any number of moves. -/
abbrev Place.Becomes : Place Key → Place Key → Prop := Relation.ReflTransGen Place.Follows

/-- Nothing follows a loan. -/
theorem Place.Becomes.lent_final {key : Key} {after : Place Key}
    (hbecomes : (Place.lent key).Becomes after) : after = .lent key := by
  rcases hbecomes.cases_head with heq | ⟨next, hfollows, _⟩
  · exact heq.symm
  · cases hfollows

theorem Place.Becomes.dropped_final {after : Place Key}
    (hbecomes : (Place.dropped).Becomes after) : after = .dropped := by
  rcases hbecomes.cases_head with heq | ⟨next, hfollows, _⟩
  · exact heq.symm
  · cases hfollows

theorem Place.Becomes.pooled_lent {key other : Key}
    (hbecomes : (Place.pooled key).Becomes (.lent other)) : key = other := by
  rcases hbecomes.cases_head with heq | ⟨next, hfollows, hrest⟩
  · cases heq
  · cases hfollows with
    | lent =>
        cases Place.Becomes.lent_final hrest
        rfl
    | evicted => cases Place.Becomes.dropped_final hrest

/-- A resource is lent for the key that it was opened for. -/
theorem Place.Becomes.opened_lent {key other : Key}
    (hbecomes : (Place.opened key).Becomes (.lent other)) : key = other := by
  rcases hbecomes.cases_head with heq | ⟨next, hfollows, hrest⟩
  · cases heq
  · cases hfollows with
    | pooled => exact Place.Becomes.pooled_lent hrest
    | surplus => cases Place.Becomes.dropped_final hrest

/-- The resources, each with the key. -/
def tag (key : Key) (ids : List Nat) : Multiset (Key × Nat) := (ids.map (key, ·) : List _)

@[simp] theorem tag_nil (key : Key) : tag key [] = 0 := rfl

theorem count_tag [DecidableEq Key] (key other : Key) (ids : List Nat) (id : Nat) :
    (tag key ids).count (other, id) = if key = other then ids.count id else 0 := by
  induction ids with
  | nil => simp [tag]
  | cons head tail ih =>
      have hcons : tag key (head :: tail) = (key, head) ::ₘ tag key tail := rfl
      rw [hcons, Multiset.count_cons, ih, List.count_cons]
      by_cases hkey : key = other
      · subst hkey
        by_cases hhead : id = head
        · simp [hhead]
        · have hne : ¬ head = id := fun heq => hhead heq.symm
          simp [hhead, hne]
      · have hne : ¬ other = key := fun heq => hkey heq.symm
        simp [hkey, hne]

@[ext] structure Inventory (Key : Type uKey) where
  /-- Opened, and held by the task that opened them. -/
  opened : Multiset (Key × Nat)
  /-- Latest first. -/
  pooled : Key → List Nat
  lent : Multiset (Key × Nat)
  /-- The number of the next resource. -/
  next : Nat

namespace Inventory

variable [DecidableEq Key] {inventory later : Inventory Key}

def setPooled (inventory : Inventory Key) (key : Key) (pool : List Nat) : Key → List Nat :=
  fun other => if other = key then pool else inventory.pooled other

/-- How often a resource is listed at a place. -/
def listed (inventory : Inventory Key) (id : Nat) : Place Key → Nat
  | .unopened => if inventory.next ≤ id then 1 else 0
  | .opened key => inventory.opened.count (key, id)
  | .pooled key => (inventory.pooled key).count id
  | .lent key => inventory.lent.count (key, id)
  | .dropped => 0

/-- Every resource is listed once, at its place; a dropped one is not listed. -/
def LocatedBy (inventory : Inventory Key) (place : Nat → Place Key) : Prop :=
  ∀ id spot, spot ≠ .dropped → inventory.listed id spot = if place id = spot then 1 else 0

/-! ## Moves -/

inductive Moves (inventory : Inventory Key) : Inventory Key → Prop
  | quiet : Moves inventory inventory
  | openBatch (key : Key) (count : Nat) :
      Moves inventory
        { inventory with
          opened := inventory.opened + tag key (List.range' inventory.next count)
          next := inventory.next + count }
  | lendAtOnce (key : Key) :
      Moves inventory
        { inventory with
          lent := tag key [inventory.next] + inventory.lent
          next := inventory.next + 1 }
  | store (key : Key) {rest : Multiset (Key × Nat)} {kept surplus : List Nat}
      (hopened : inventory.opened = rest + tag key (kept ++ surplus)) :
      Moves inventory
        { inventory with
          opened := rest
          pooled := inventory.setPooled key (kept.reverse ++ inventory.pooled key) }
  | lend (key : Key) {gone rest : List Nat} {taken : Option Nat}
      (hpooled : inventory.pooled key = gone ++ (taken.toList ++ rest)) :
      Moves inventory
        { inventory with
          pooled := inventory.setPooled key rest
          lent := tag key taken.toList + inventory.lent }

/-- A pool is a stack: a move takes from its top or puts on its top. -/
theorem Moves.suffix (hmoves : inventory.Moves later) (key : Key) :
    later.pooled key <:+ inventory.pooled key ∨ inventory.pooled key <:+ later.pooled key := by
  cases hmoves with
  | quiet => exact .inl (List.suffix_refl _)
  | openBatch other count => exact .inl (List.suffix_refl _)
  | lendAtOnce other => exact .inl (List.suffix_refl _)
  | @store other rest kept surplus hopened =>
      right
      by_cases hkey : key = other
      · subst hkey
        simp [setPooled]
      · simp [setPooled, hkey]
  | @lend other gone rest taken hpooled =>
      left
      by_cases hkey : key = other
      · subst hkey
        simp only [setPooled, if_true, hpooled, ← List.append_assoc]
        exact List.suffix_append _ _
      · simp [setPooled, hkey]

/-! ## Places along moves -/

/-- One resource stays where it is, or makes one move. -/
def Shifts (inventory later : Inventory Key) (id : Nat) : Prop :=
  (∀ spot, later.listed id spot = inventory.listed id spot) ∨
    ∃ before after : Place Key, before.Follows after ∧ ∀ spot, spot ≠ .dropped →
      later.listed id spot + (if before = spot then 1 else 0) =
        inventory.listed id spot + if after = spot then 1 else 0

theorem LocatedBy.listed_le_one {place : Nat → Place Key} (hlocated : inventory.LocatedBy place)
    (id : Nat) {spot : Place Key} (hspot : spot ≠ .dropped) : inventory.listed id spot ≤ 1 := by
  rw [hlocated id spot hspot]
  split <;> omega

/-- When every resource shifts, all are located again. -/
theorem LocatedBy.of_shifts {place : Nat → Place Key} (hlocated : inventory.LocatedBy place)
    (hshifts : ∀ id, inventory.Shifts later id) :
    ∃ place', later.LocatedBy place' ∧
      ∀ id, place' id = place id ∨ (place id).Follows (place' id) := by
  have hplace : ∀ id, ∃ new : Place Key, (new = place id ∨ (place id).Follows new) ∧
      ∀ spot, spot ≠ .dropped → later.listed id spot = if new = spot then 1 else 0 := by
    intro id
    rcases hshifts id with hsame | ⟨before, after, hfollows, hlisted⟩
    · exact ⟨place id, .inl rfl, fun spot hspot => (hsame spot).trans (hlocated id spot hspot)⟩
    · -- The resource was listed at `before`, so that is its place.
      have hbefore : place id = before := by
        have hspot := hlisted before hfollows.ne_dropped
        rw [hlocated id before hfollows.ne_dropped, if_pos rfl, if_neg hfollows.ne.symm] at hspot
        by_contra hne
        rw [if_neg hne] at hspot
        omega
      refine ⟨after, .inr (hbefore ▸ hfollows), fun spot hspot => ?_⟩
      have hshift := hlisted spot hspot
      rw [hlocated id spot hspot, hbefore] at hshift
      omega
  choose place' hmove hlisted using hplace
  exact ⟨place', hlisted, hmove⟩

theorem LocatedBy.unique {place place' : Nat → Place Key} (hlocated : inventory.LocatedBy place)
    (hlocated' : inventory.LocatedBy place') : place = place' := by
  funext id
  by_cases hdropped : place id = .dropped
  · by_contra hne
    have hlisted := hlocated' id (place' id) fun heq => hne (hdropped.trans heq.symm)
    rw [hlocated id (place' id) fun heq => hne (hdropped.trans heq.symm), if_neg hne,
      if_pos rfl] at hlisted
    cases hlisted
  · have hlisted := hlocated id (place id) hdropped
    rw [hlocated' id (place id) hdropped, if_pos rfl] at hlisted
    by_contra hne
    rw [if_neg fun heq => hne heq.symm] at hlisted
    cases hlisted

/-! ## Every move shifts -/

/-- A batch leaves a place: part of it goes on to another one, and the rest is dropped.
A resource was listed there at most once, so it is in one part at most. -/
theorem Shifts.of_counts {id : Nat} (moved lost : Nat) {before after : Place Key}
    (hlisted : inventory.listed id before ≤ 1) (hafter : before.Follows after)
    (hdropped : lost ≠ 0 → before.Follows .dropped)
    (hcounts : ∀ spot, spot ≠ .dropped →
      later.listed id spot + (if before = spot then moved + lost else 0) =
        inventory.listed id spot + if after = spot then moved else 0) :
    inventory.Shifts later id := by
  have hbefore := hcounts before hafter.ne_dropped
  rw [if_pos rfl, if_neg hafter.ne.symm] at hbefore
  by_cases hmoved : moved = 0
  · subst hmoved
    by_cases hlost : lost = 0
    · subst hlost
      refine .inl fun spot => ?_
      by_cases hspot : spot = .dropped
      · subst hspot
        rfl
      · simpa using hcounts spot hspot
    · obtain rfl : lost = 1 := by omega
      refine .inr ⟨before, .dropped, hdropped hlost, fun spot hspot => ?_⟩
      rw [if_neg hspot.symm]
      simpa using hcounts spot hspot
  · obtain ⟨rfl, rfl⟩ : moved = 1 ∧ lost = 0 := by omega
    exact .inr ⟨before, after, hafter, hcounts⟩

theorem listed_unopened_le (inventory : Inventory Key) (id : Nat) :
    inventory.listed id .unopened ≤ 1 := by
  change (if inventory.next ≤ id then 1 else 0) ≤ 1
  split <;> decide

theorem count_setPooled (inventory : Inventory Key) (key other : Key) (pool : List Nat) (id : Nat) :
    (inventory.setPooled key pool other).count id =
      if key = other then pool.count id else (inventory.pooled other).count id := by
  by_cases hkey : key = other
  · subst hkey
    simp [setPooled]
  · have hne : ¬ other = key := fun heq => hkey heq.symm
    simp [setPooled, hkey, hne]

theorem shifts_openBatch (key : Key) (count id : Nat) :
    inventory.Shifts
      { inventory with
        opened := inventory.opened + tag key (List.range' inventory.next count)
        next := inventory.next + count } id := by
  refine Shifts.of_counts ((List.range' inventory.next count).count id) 0
    (inventory.listed_unopened_le id) (.opened key) (fun hlost => (hlost rfl).elim)
    fun spot hspot => ?_
  cases spot with
  | unopened =>
      by_cases hnew : inventory.next ≤ id ∧ id < inventory.next + count
      · have hcount : (List.range' inventory.next count).count id = 1 :=
          List.count_eq_one_of_mem List.nodup_range' (by simpa using hnew)
        simp [listed, hcount, hnew.1, Nat.not_le.mpr hnew.2]
      · have hcount : (List.range' inventory.next count).count id = 0 :=
          List.count_eq_zero_of_not_mem (by simpa using hnew)
        have hiff : inventory.next + count ≤ id ↔ inventory.next ≤ id := by omega
        simp [listed, hcount, hiff]
  | opened other => simp [listed, count_tag]
  | pooled other | lent other => simp [listed]
  | dropped => exact (hspot rfl).elim

theorem shifts_lendAtOnce (key : Key) (id : Nat) :
    inventory.Shifts
      { inventory with
        lent := tag key [inventory.next] + inventory.lent
        next := inventory.next + 1 } id := by
  refine Shifts.of_counts ([inventory.next].count id) 0 (inventory.listed_unopened_le id)
    (.lentAtOnce key) (fun hlost => (hlost rfl).elim) fun spot hspot => ?_
  cases spot with
  | unopened =>
      by_cases hnew : inventory.next = id
      · subst hnew
        simp [listed]
      · have hiff : inventory.next + 1 ≤ id ↔ inventory.next ≤ id := by omega
        simp [listed, hnew, hiff]
  | lent other => simp [listed, count_tag, Nat.add_comm]
  | opened other | pooled other => simp [listed]
  | dropped => exact (hspot rfl).elim

theorem LocatedBy.shifts_store {place : Nat → Place Key} (hlocated : inventory.LocatedBy place)
    {key : Key} {rest : Multiset (Key × Nat)} {kept surplus : List Nat}
    (hopened : inventory.opened = rest + tag key (kept ++ surplus)) (id : Nat) :
    inventory.Shifts
      { inventory with
        opened := rest
        pooled := inventory.setPooled key (kept.reverse ++ inventory.pooled key) } id := by
  have hlisted := hlocated.listed_le_one id (fun heq => nomatch heq : Place.opened key ≠ .dropped)
  refine Shifts.of_counts (kept.count id) (surplus.count id) hlisted (.pooled key)
    (fun _ => .surplus key) fun spot hspot => ?_
  cases spot with
  | opened other => simp [listed, hopened, count_tag]
  | pooled other =>
      by_cases hkey : key = other
      · subst hkey
        simp [listed, count_setPooled, Nat.add_comm]
      · simp [listed, count_setPooled, hkey]
  | unopened | lent other => simp [listed]
  | dropped => exact (hspot rfl).elim

theorem LocatedBy.shifts_lend {place : Nat → Place Key} (hlocated : inventory.LocatedBy place)
    {key : Key} {gone rest : List Nat} {taken : Option Nat}
    (hpooled : inventory.pooled key = gone ++ (taken.toList ++ rest)) (id : Nat) :
    inventory.Shifts
      { inventory with
        pooled := inventory.setPooled key rest
        lent := tag key taken.toList + inventory.lent } id := by
  have hlisted := hlocated.listed_le_one id (fun heq => nomatch heq : Place.pooled key ≠ .dropped)
  refine Shifts.of_counts (taken.toList.count id) (gone.count id) hlisted (.lent key)
    (fun _ => .evicted key) fun spot hspot => ?_
  cases spot with
  | pooled other =>
      by_cases hkey : key = other
      · subst hkey
        simp only [listed, count_setPooled, if_true, hpooled, List.count_append, reduceCtorEq,
          if_false]
        omega
      · simp [listed, count_setPooled, hkey]
  | lent other => simp [listed, count_tag, Nat.add_comm]
  | unopened | opened other => simp [listed]
  | dropped => exact (hspot rfl).elim

/-- A move keeps every resource in one place, and takes it at most one step
along its life. -/
theorem LocatedBy.moves {place : Nat → Place Key} (hlocated : inventory.LocatedBy place)
    (hmoves : inventory.Moves later) :
    ∃ place', later.LocatedBy place' ∧
      ∀ id, place' id = place id ∨ (place id).Follows (place' id) := by
  apply hlocated.of_shifts
  intro id
  cases hmoves with
  | quiet => exact .inl fun _ => rfl
  | openBatch key count => exact shifts_openBatch key count id
  | lendAtOnce key => exact shifts_lendAtOnce key id
  | store key hopened => exact hlocated.shifts_store hopened id
  | lend key hpooled => exact hlocated.shifts_lend hpooled id

/-- Nothing has been opened. -/
theorem locatedBy_empty (hopened : inventory.opened = 0)
    (hpooled : ∀ key, inventory.pooled key = [])
    (hlent : inventory.lent = 0) (hnext : inventory.next = 0) :
    inventory.LocatedBy fun _ => .unopened := by
  intro id spot hspot
  cases spot with
  | unopened => simp [listed, hnext]
  | opened key => simp [listed, hopened]
  | pooled key => simp [listed, hpooled]
  | lent key => simp [listed, hlent]
  | dropped => exact (hspot rfl).elim

end Inventory

/-! ## Systems that move an inventory -/

section Systems

open Foundation.Transition

universe uState uLabel

variable [DecidableEq Key] {State : Type uState} {Label : Type uLabel}

/-- The part of the state that `view` shows starts empty and changes by moves. -/
structure Moving (sys : System State Label) (view : State → Inventory Key) : Prop where
  start : (view sys.start).LocatedBy fun _ => .unopened
  step : ∀ {state label next}, sys.step state label = some next → (view state).Moves (view next)

/-- What it means that every resource has one owner, over all runs of a system. -/
structure OneOwner (sys : System State Label) (view : State → Inventory Key) : Prop where
  /-- Every resource is in exactly one place. -/
  place : ∀ labels state, sys.Visits labels state →
    ∃! place : Nat → Place Key, (view state).LocatedBy place
  /-- Nobody gives a resource back. -/
  final : ∀ labels state later place place', sys.runFrom state labels = some later →
    (view state).LocatedBy place → (view later).LocatedBy place' →
    ∀ id key, place id = .lent key → place' id = .lent key
  /-- A resource is lent for the key that it was opened for. -/
  origin : ∀ labels state later place place', sys.runFrom state labels = some later →
    (view state).LocatedBy place → (view later).LocatedBy place' →
    ∀ id key other, place id = .opened key → place' id = .lent other → key = other
  /-- A pool is taken from and put on at its top. -/
  stack : ∀ state label next, sys.step state label = some next → ∀ key,
    (view next).pooled key <:+ (view state).pooled key ∨
      (view state).pooled key <:+ (view next).pooled key

namespace Moving

variable {sys : System State Label} {view : State → Inventory Key}

/-- In every state that is reached, every resource has exactly one place. -/
theorem existsUnique_place (hmoving : Moving sys view) {labels : List Label} {state : State}
    (hvisits : sys.Visits labels state) :
    ∃! place : Nat → Place Key, (view state).LocatedBy place := by
  have hexists : ∃ place : Nat → Place Key, (view state).LocatedBy place := by
    refine @System.Visits.invariant _ _ sys labels
      (fun state => ∃ place : Nat → Place Key, (view state).LocatedBy place)
      ⟨_, hmoving.start⟩ ?_ state hvisits
    rintro state label next hstep ⟨place, hlocated⟩
    obtain ⟨place', hlocated', _⟩ := hlocated.moves (hmoving.step hstep)
    exact ⟨place', hlocated'⟩
  obtain ⟨place, hlocated⟩ := hexists
  exact ⟨place, hlocated, fun other hother => hother.unique hlocated⟩

/-- Along a run every resource only moves forward. -/
theorem becomes (hmoving : Moving sys view) {labels : List Label} {state later : State}
    (hrun : sys.runFrom state labels = some later) {place place' : Nat → Place Key}
    (hlocated : (view state).LocatedBy place) (hlocated' : (view later).LocatedBy place')
    (id : Nat) : (place id).Becomes (place' id) := by
  induction labels generalizing state place with
  | nil =>
      cases hrun
      rw [hlocated.unique hlocated']
  | cons label labels ih =>
      obtain ⟨next, hstep, hrest⟩ := Option.bind_eq_some_iff.mp hrun
      obtain ⟨place'', hlocated'', hmove⟩ := hlocated.moves (hmoving.step hstep)
      have hbecomes := ih hrest hlocated''
      rcases hmove id with hsame | hfollows
      · rwa [hsame] at hbecomes
      · exact .head hfollows hbecomes

theorem oneOwner (hmoving : Moving sys view) : OneOwner sys view where
  place := fun _ _ hvisits => hmoving.existsUnique_place hvisits
  final := by
    intro labels state later place place' hrun hlocated hlocated' id key hlent
    have hbecomes := hmoving.becomes hrun hlocated hlocated' id
    rw [hlent] at hbecomes
    exact hbecomes.lent_final
  origin := by
    intro labels state later place place' hrun hlocated hlocated' id key other hopened hlent
    have hbecomes := hmoving.becomes hrun hlocated hlocated' id
    rw [hopened, hlent] at hbecomes
    exact hbecomes.opened_lent
  stack := fun _ _ _ hstep key => (hmoving.step hstep).suffix key

end Moving

end Systems

end Foundation.Custody
