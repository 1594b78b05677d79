import Mathlib.Data.List.Induction
import Mathlib.Logic.Function.Basic

/-!
# The cooldown maps

The maps behind every failure cooldown are shared by all connections. A map is behind a
mutex, and the deadline of a cooldown is computed while the mutex is held: a sum that the
clock cannot represent is a panic that poisons the mutex, and every later call on the map
panics as well. Instants and durations are in nanoseconds.
-/

namespace TgWsProxy.Transport

/-- `Duration::from_secs`. -/
def fromSecs (seconds : UInt64) : Nat := 1000000000 * seconds.toNat

/-- The last instant of a clock that counts its seconds in an `i64`. -/
def unixLatest : Nat := 1000000000 * 9223372036854775807 + 999999999

structure CooldownMap (Key : Type) where
  /-- The hash map, once there is one. -/
  entries : Option (Key → Option Nat)
  poisoned : Bool

namespace CooldownMap

variable {Key : Type}

inductive Call (Key : Type)
  | set (key : Key) (cooldown : UInt64)
  | clear (key : Key)
  | active (key : Key)
  deriving DecidableEq

/-- A call and the time at which it reads the clock. -/
abbrev Timed (Key : Type) := Nat × Call Key

inductive Outcome
  | panicked
  | returned
  | answered (active : Bool)
  deriving DecidableEq

def new : CooldownMap Key := ⟨none, false⟩

def lookup (map : CooldownMap Key) (key : Key) : Option Nat :=
  map.entries.bind fun entries => entries key

section Calls

variable [DecidableEq Key]

/-- The map is made before the deadline is computed, so it is there after a panic. -/
def set (latest now : Nat) (key : Key) (cooldown : UInt64) (map : CooldownMap Key) :
    Outcome × CooldownMap Key :=
  if map.poisoned then (.panicked, map)
  else
    let entries := map.entries.getD fun _ => none
    if now + fromSecs cooldown ≤ latest then
      (.returned, ⟨some (Function.update entries key (some (now + fromSecs cooldown))), false⟩)
    else (.panicked, ⟨some entries, true⟩)

def clear (key : Key) (map : CooldownMap Key) : Outcome × CooldownMap Key :=
  if map.poisoned then (.panicked, map)
  else (.returned, { map with
    entries := map.entries.map fun entries => Function.update entries key none })

def active (now : Nat) (key : Key) (map : CooldownMap Key) : Outcome × CooldownMap Key :=
  if map.poisoned then (.panicked, map)
  else match map.lookup key with
    | some deadline => (.answered (decide (now < deadline)), map)
    | none => (.answered false, map)

def step (latest : Nat) (map : CooldownMap Key) : Timed Key → Outcome × CooldownMap Key
  | (now, .set key cooldown) => map.set latest now key cooldown
  | (_, .clear key) => map.clear key
  | (now, .active key) => map.active now key

/-- The outcomes of a history, call by call. -/
def outcomes (latest : Nat) (map : CooldownMap Key) : List (Timed Key) → List Outcome
  | [] => []
  | timed :: later => (map.step latest timed).1 :: (map.step latest timed).2.outcomes latest later

/-- The map after a history. -/
def after (latest : Nat) (map : CooldownMap Key) (history : List (Timed Key)) : CooldownMap Key :=
  history.foldl (fun map timed => (map.step latest timed).2) map

end Calls

/-! ## Histories -/

def Call.Changes (key : Key) : Call Key → Prop
  | .set other _ | .clear other => other = key
  | .active _ => False

/-- The last change of the key in the history is a `set`, at `time` and with `cooldown`. -/
def LatestSet (key : Key) (history : List (Timed Key)) (time : Nat) (cooldown : UInt64) : Prop :=
  ∃ early late, history = early ++ (time, .set key cooldown) :: late ∧
    ∀ later ∈ late, ¬ later.2.Changes key

/-- Every deadline of the history can be represented. -/
def Representable (latest : Nat) (history : List (Timed Key)) : Prop :=
  ∀ time key cooldown, (time, Call.set key cooldown) ∈ history → time + fromSecs cooldown ≤ latest

section Histories

variable {latest : Nat} {key : Key} {history : List (Timed Key)} {timed : Timed Key}
variable {time : Nat} {cooldown : UInt64}

theorem representable_nil : Representable latest ([] : List (Timed Key)) := by
  intro time key cooldown hmem
  cases hmem

theorem representable_concat :
    Representable latest (history ++ [timed]) ↔
      Representable latest history ∧ Representable latest [timed] := by
  constructor
  · intro hall
    exact ⟨fun time key cooldown hmem => hall time key cooldown (List.mem_append_left _ hmem),
      fun time key cooldown hmem => hall time key cooldown (List.mem_append_right _ hmem)⟩
  · rintro ⟨hhistory, hlast⟩ time key cooldown hmem
    rcases List.mem_append.mp hmem with hmem | hmem
    · exact hhistory time key cooldown hmem
    · exact hlast time key cooldown hmem

theorem representable_singleton_of_not_set
    (hcall : ∀ key cooldown, timed.2 ≠ .set key cooldown) : Representable latest [timed] := by
  intro time key cooldown hmem
  exact (hcall key cooldown (by rw [← List.mem_singleton.mp hmem])).elim

theorem latestSet_concat :
    LatestSet key (history ++ [timed]) time cooldown ↔
      timed = (time, .set key cooldown) ∨
        ¬ timed.2.Changes key ∧ LatestSet key history time cooldown := by
  constructor
  · rintro ⟨early, late, heq, hlate⟩
    cases late using List.reverseRecOn with
    | nil =>
        obtain ⟨-, hlast⟩ := List.append_inj' heq rfl
        exact .inl (List.singleton_inj.mp hlast)
    | append_singleton late last =>
        rw [← List.cons_append, ← List.append_assoc] at heq
        obtain ⟨hhistory, hlast⟩ := List.append_inj' heq rfl
        obtain ⟨hlate, hunchanged⟩ := List.forall_mem_append.mp hlate
        rw [List.singleton_inj.mp hlast]
        exact .inr ⟨hunchanged last (List.mem_singleton_self last), early, late, hhistory, hlate⟩
  · rintro (rfl | ⟨hunchanged, early, late, rfl, hlate⟩)
    · exact ⟨history, [], rfl, fun later hlater => by cases hlater⟩
    · refine ⟨early, late ++ [timed], by simp, ?_⟩
      intro later hlater
      rcases List.mem_append.mp hlater with hlater | hlater
      · exact hlate later hlater
      · rwa [List.mem_singleton.mp hlater]

theorem latestSet_concat_of_unchanged (hunchanged : ¬ timed.2.Changes key) :
    LatestSet key (history ++ [timed]) time cooldown ↔ LatestSet key history time cooldown := by
  rw [latestSet_concat, and_iff_right hunchanged]
  apply or_iff_right
  rintro rfl
  exact hunchanged rfl

theorem latestSet_concat_of_changes (hchanges : timed.2.Changes key) :
    LatestSet key (history ++ [timed]) time cooldown ↔ timed = (time, .set key cooldown) := by
  rw [latestSet_concat]
  apply or_iff_left
  rintro ⟨hunchanged, -⟩
  exact hunchanged hchanges

end Histories

/-! ## The map and its history -/

section Runs

variable {latest : Nat} {map : CooldownMap Key} {history : List (Timed Key)}

/-- What a map knows of its history: whether it is poisoned, and as long as it is not,
the deadline of the last `set` of every key that was not cleared since. -/
structure Reflects (latest : Nat) (history : List (Timed Key)) (map : CooldownMap Key) :
    Prop where
  poisoned : map.poisoned = false ↔ Representable latest history
  deadlines : map.poisoned = false → ∀ key deadline, map.lookup key = some deadline ↔
    ∃ time cooldown, LatestSet key history time cooldown ∧ deadline = time + fromSecs cooldown

theorem reflects_new : Reflects latest [] (new : CooldownMap Key) where
  poisoned := ⟨fun _ => representable_nil, fun _ => rfl⟩
  deadlines _ key deadline := by
    constructor
    · intro hlookup
      cases hlookup
    · rintro ⟨time, cooldown, ⟨early, late, hnil, -⟩, -⟩
      cases early <;> cases hnil

theorem Reflects.of_poisoned (hpoisoned : map.poisoned = true)
    (hhistory : ¬ Representable latest history) : Reflects latest history map where
  poisoned := by simp [hpoisoned, hhistory]
  deadlines hsound := by simp [hpoisoned] at hsound

/-- A call that leaves a sound map sound, and changes its entry for one key at most. -/
theorem Reflects.concat {next : CooldownMap Key} {timed : Timed Key}
    (hreflects : Reflects latest history map) (hsound : map.poisoned = false)
    (hnext : next.poisoned = false) (hlast : Representable latest [timed])
    (hunchanged : ∀ key, ¬ timed.2.Changes key → next.lookup key = map.lookup key)
    (hchanges : ∀ key, timed.2.Changes key → ∀ deadline, next.lookup key = some deadline ↔
      ∃ time cooldown, timed = (time, .set key cooldown) ∧
        deadline = time + fromSecs cooldown) :
    Reflects latest (history ++ [timed]) next where
  poisoned := by
    have hhistory := hreflects.poisoned.mp hsound
    simp [hnext, representable_concat, hhistory, hlast]
  deadlines _ key deadline := by
    by_cases hkey : timed.2.Changes key
    · rw [hchanges key hkey]
      simp only [latestSet_concat_of_changes hkey]
    · rw [hunchanged key hkey, hreflects.deadlines hsound]
      simp only [latestSet_concat_of_unchanged hkey]

theorem lookup_eq (map : CooldownMap Key) (key : Key) :
    map.lookup key = (map.entries.getD fun _ => none) key := by
  unfold lookup
  cases map.entries with
  | none => rfl
  | some entries => rfl

theorem Reflects.active (hreflects : Reflects latest history map) (hsound : map.poisoned = false)
    (now : Nat) (key : Key) :
    Reflects latest (history ++ [(now, .active key)]) (map.active now key).2 := by
  have hmap : (map.active now key).2 = map := by
    unfold CooldownMap.active
    split
    next => rfl
    next => split <;> rfl
  rw [hmap]
  apply hreflects.concat hsound hsound
  · exact representable_singleton_of_not_set nofun
  · exact fun _ _ => rfl
  · exact fun _ hchanges => hchanges.elim

variable [DecidableEq Key]

/-- A poisoned map stays as it is. -/
theorem step_of_poisoned (hpoisoned : map.poisoned = true) (timed : Timed Key) :
    map.step latest timed = (.panicked, map) := by
  obtain ⟨now, call⟩ := timed
  cases call with
  | set key cooldown => exact if_pos hpoisoned
  | clear key => exact if_pos hpoisoned
  | active key => exact if_pos hpoisoned

theorem Reflects.set (hreflects : Reflects latest history map) (hsound : map.poisoned = false)
    (now : Nat) (key : Key) (cooldown : UInt64) :
    Reflects latest (history ++ [(now, .set key cooldown)])
      (map.set latest now key cooldown).2 := by
  have hnot : ¬ map.poisoned = true := by simp [hsound]
  unfold CooldownMap.set
  rw [if_neg hnot]
  by_cases hfits : now + fromSecs cooldown ≤ latest
  · rw [if_pos hfits]
    apply hreflects.concat hsound rfl
    · intro time other length hmem
      cases List.mem_singleton.mp hmem
      exact hfits
    · intro other hother
      rw [lookup_eq map]
      exact Function.update_of_ne (Ne.symm hother) _ _
    · rintro _ rfl deadline
      have hentry : Function.update (map.entries.getD fun _ => none) key
          (some (now + fromSecs cooldown)) key = some (now + fromSecs cooldown) :=
        Function.update_self ..
      simp only [lookup, Option.bind_some, hentry]
      constructor
      · intro hdeadline
        exact ⟨now, cooldown, rfl, (Option.some.inj hdeadline).symm⟩
      · rintro ⟨time, length, heq, rfl⟩
        cases heq
        rfl
  · rw [if_neg hfits]
    apply Reflects.of_poisoned rfl
    intro hall
    exact hfits (hall now key cooldown (List.mem_append_right _ (List.mem_singleton_self _)))

theorem Reflects.clear (hreflects : Reflects latest history map) (hsound : map.poisoned = false)
    (now : Nat) (key : Key) :
    Reflects latest (history ++ [(now, .clear key)]) (map.clear key).2 := by
  have hnot : ¬ map.poisoned = true := by simp [hsound]
  have hclear : map.clear key = (.returned, { map with
      entries := map.entries.map fun entries => Function.update entries key none }) :=
    if_neg hnot
  rw [hclear]
  have hlookup (other : Key) : ({ map with
      entries := map.entries.map fun entries => Function.update entries key none } :
        CooldownMap Key).lookup other = Function.update map.lookup key none other := by
    by_cases hother : other = key
    · subst hother
      simp [lookup]
    · cases hentries : map.entries <;> simp [lookup, hentries, Function.update_of_ne hother]
  refine hreflects.concat hsound ?_ (representable_singleton_of_not_set nofun) ?_ ?_
  · exact hsound
  · intro other hother
    rw [hlookup, Function.update_of_ne (Ne.symm hother)]
  · rintro _ rfl deadline
    rw [hlookup, Function.update_self]
    simp

theorem Reflects.step (hreflects : Reflects latest history map) (timed : Timed Key) :
    Reflects latest (history ++ [timed]) (map.step latest timed).2 := by
  by_cases hpoisoned : map.poisoned = true
  · rw [step_of_poisoned hpoisoned]
    apply Reflects.of_poisoned hpoisoned
    intro hall
    have hsound := hreflects.poisoned.mpr (representable_concat.mp hall).1
    simp [hpoisoned] at hsound
  · have hsound := eq_false_of_ne_true hpoisoned
    obtain ⟨now, call⟩ := timed
    cases call with
    | set key cooldown => exact hreflects.set hsound now key cooldown
    | clear key => exact hreflects.clear hsound now key
    | active key => exact hreflects.active hsound now key

/-- Every history is reflected by the map it leaves behind. -/
theorem reflects_after (latest : Nat) (history : List (Timed Key)) :
    Reflects latest history (new.after latest history) := by
  induction history using List.reverseRecOn with
  | nil => exact reflects_new
  | append_singleton history timed ih =>
      unfold CooldownMap.after
      rw [List.foldl_append]
      exact ih.step timed

theorem outcomes_getElem? (latest : Nat) (map : CooldownMap Key) (before : List (Timed Key))
    (timed : Timed Key) (later : List (Timed Key)) :
    (map.outcomes latest (before ++ timed :: later))[before.length]? =
      some ((map.after latest before).step latest timed).1 := by
  induction before generalizing map with
  | nil => rfl
  | cons first before ih => exact ih (map.step latest first).2

/-- A call panics exactly when it is the first `set` without a deadline, or comes after
it. -/
theorem Reflects.panicked_iff (hreflects : Reflects latest history map) (timed : Timed Key) :
    (map.step latest timed).1 = .panicked ↔ ¬ Representable latest (history ++ [timed]) := by
  rw [← (hreflects.step timed).poisoned, Bool.not_eq_false]
  by_cases hpoisoned : map.poisoned = true
  · simp [step_of_poisoned hpoisoned, hpoisoned]
  · obtain ⟨now, call⟩ := timed
    cases call with
    | set key cooldown =>
        by_cases hfits : now + fromSecs cooldown ≤ latest
        · simp [CooldownMap.step, CooldownMap.set, hpoisoned, hfits]
        · simp [CooldownMap.step, CooldownMap.set, hpoisoned, hfits]
    | clear key => simp [CooldownMap.step, CooldownMap.clear, hpoisoned]
    | active key =>
        cases hlookup : map.lookup key with
        | none => simp [CooldownMap.step, CooldownMap.active, hpoisoned, hlookup]
        | some deadline => simp [CooldownMap.step, CooldownMap.active, hpoisoned, hlookup]

theorem Reflects.active_answered (hreflects : Reflects latest history map)
    (hhistory : Representable latest history) (now : Nat) (key : Key) :
    ∃ answer, (map.step latest (now, .active key)).1 = .answered answer ∧
      (answer = true ↔
        ∃ time cooldown, LatestSet key history time cooldown ∧ now < time + fromSecs cooldown) := by
  have hsound := hreflects.poisoned.mpr hhistory
  have hdeadlines := hreflects.deadlines hsound key
  cases hlookup : map.lookup key with
  | none =>
      refine ⟨false, by simp [CooldownMap.step, CooldownMap.active, hsound, hlookup], ?_⟩
      constructor
      · intro hactive
        cases hactive
      · rintro ⟨time, cooldown, hlatest, -⟩
        cases hlookup.symm.trans ((hdeadlines _).mpr ⟨time, cooldown, hlatest, rfl⟩)
  | some deadline =>
      refine ⟨decide (now < deadline), ?_, ?_⟩
      · simp [CooldownMap.step, CooldownMap.active, hsound, hlookup]
      rw [decide_eq_true_iff]
      constructor
      · intro hnow
        obtain ⟨time, cooldown, hlatest, rfl⟩ := (hdeadlines deadline).mp hlookup
        exact ⟨time, cooldown, hlatest, hnow⟩
      · rintro ⟨time, cooldown, hlatest, hnow⟩
        have hsame := (hdeadlines _).mpr ⟨time, cooldown, hlatest, rfl⟩
        rwa [Option.some.inj (hlookup.symm.trans hsame)]

theorem outcomes_concat (latest : Nat) (map : CooldownMap Key) (history : List (Timed Key))
    (timed : Timed Key) :
    map.outcomes latest (history ++ [timed]) =
      map.outcomes latest history ++ [((map.after latest history).step latest timed).1] := by
  induction history generalizing map with
  | nil => rfl
  | cons first later ih => exact congrArg _ (ih (map.step latest first).2)

theorem not_panicked_iff (latest : Nat) (history : List (Timed Key)) :
    (∀ outcome ∈ new.outcomes latest history, outcome ≠ .panicked) ↔
      Representable latest history := by
  induction history using List.reverseRecOn with
  | nil => exact ⟨fun _ => representable_nil, fun _ outcome hmem => by cases hmem⟩
  | append_singleton history timed ih =>
      rw [outcomes_concat, List.forall_mem_append, ih, List.forall_mem_singleton, ne_eq,
        (reflects_after latest history).panicked_iff, not_not]
      apply and_iff_right_of_imp
      intro hall
      exact (representable_concat.mp hall).1

/-- Over every history of a map, a call panics exactly when a deadline up to it cannot be
represented. Until then a key is in its cooldown exactly when its last change was a `set`
whose time has not run out. -/
theorem cooldown_history (latest : Nat) (history : List (Timed Key)) :
    ((∀ outcome ∈ new.outcomes latest history, outcome ≠ .panicked) ↔
      Representable latest history) ∧
    ∀ before timed later, history = before ++ timed :: later →
      ((new.outcomes latest history)[before.length]? = some .panicked ↔
        ¬ Representable latest (before ++ [timed])) ∧
      ∀ now key, timed = (now, .active key) → Representable latest before →
        ∃ answer, (new.outcomes latest history)[before.length]? = some (.answered answer) ∧
          (answer = true ↔ ∃ time cooldown, LatestSet key before time cooldown ∧
            now < time + fromSecs cooldown) := by
  constructor
  · exact not_panicked_iff latest history
  · rintro before timed later rfl
    rw [outcomes_getElem?]
    have hreflects := reflects_after latest before
    refine ⟨by rw [Option.some_inj, hreflects.panicked_iff], ?_⟩
    rintro now key rfl hbefore
    obtain ⟨answer, hanswer, hactive⟩ := hreflects.active_answered hbefore now key
    exact ⟨answer, congrArg some hanswer, hactive⟩

theorem cooldown_history_minute :
    Representable unixLatest [(5, .set ((2, false) : Nat × Bool) 60)] ∧
      ∃ answer, (new.outcomes unixLatest
          [(5, .set (2, false) 60), (7, .active (2, false))])[1]? = some (.answered answer) ∧
        (answer = true ↔ ∃ time cooldown,
          LatestSet (2, false) [(5, .set (2, false) 60)] time cooldown ∧
            7 < time + fromSecs cooldown) := by
  have hset : Representable unixLatest [(5, .set ((2, false) : Nat × Bool) 60)] := by
    intro time key cooldown hmem
    cases List.mem_singleton.mp hmem
    decide
  exact ⟨hset, ((cooldown_history unixLatest _).2 [(5, .set (2, false) 60)]
    (7, .active (2, false)) [] rfl).2 7 (2, false) rfl hset⟩

/-- The longest cooldown of the command line has no deadline, and takes every later call
on the map with it. -/
theorem longest_cooldown_poisons :
    [(0, Call.set (2, false) 18446744073709551615), (0, .active (2, false)),
        (1, .set (4, false) 60)].Pairwise (fun first second => first.1 ≤ second.1) ∧
      new.outcomes unixLatest [(0, .set (2, false) 18446744073709551615), (0, .active (2, false)),
        (1, .set (4, false) 60)] = [.panicked, .panicked, .panicked] := by
  decide

end Runs

end CooldownMap

end TgWsProxy.Transport
