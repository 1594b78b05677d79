import TgWsProxy.Pool.Capacity
import TgWsProxy.Pool.SingleFlight

/-!
# Replacing what clients take

A `get` that finds its key reserved spawns no refill and relies on the running
one, but that one has fixed how many connections it opens when it measured the
bucket. What is taken after the measurement is replaced only if the running
refill still makes up for everything that is missing.
-/

namespace TgWsProxy.Pool

open Foundation.Reservation Foundation.Transition

/-! ## Clients and refills only -/

/-- Steps of clients that allow a refill, and of refill tasks all of whose dials
succeed. The warm-up takes no step. -/
def Succeeds (pool : DirectPool) : DirectLabel → Prop
  | .get _ _ allowRefill _ _ => allowRefill = true
  | .refillDial index count =>
      ∀ task needed, pool.refills[index]? = some task → task.phase = .dialing needed →
        count = needed
  | .schedule _ | .refillMeasure _ | .refillStore _ _ | .refillRelease _ => True
  | .warmupStart _ | .warmupDial _ _ | .warmupStore _ _ => False

/-- A client has looked into the bucket. -/
def Asked (key : PoolKey) (labels : List DirectLabel) : Prop :=
  ∃ targetIp allowRefill now closed, .get key targetIp allowRefill now closed ∈ labels

/-- A `get` of the key has yet to schedule its refill. -/
def DirectPool.Scheduling (pool : DirectPool) (key : PoolKey) : Prop :=
  ∃ targetIp, (key, targetIp) ∈ pool.scheduling

/-- Connections that a task will still store into a bucket of the given length,
when all its dials succeed. -/
def RefillPhase.supply (size length : Nat) : RefillPhase → Nat
  | .reserved => size - length
  | .dialing needed => needed
  | .dialed connections => connections.length
  | .releasing => 0

/-- The running refill of the key makes up for what is missing. -/
def Suffices (config : Config) (pool : DirectPool) (key : PoolKey) : Prop :=
  ∀ task ∈ pool.refills, task.key = key →
    config.poolSize ≤ (pool.idle key).length +
      task.phase.supply config.poolSize (pool.idle key).length

/-- A `get` that is refused its own refill does not need one. -/
def RefusedInTime (config : Config) (pool : DirectPool) : DirectLabel → Prop
  | .schedule index =>
      ∀ key targetIp, pool.scheduling[index]? = some (key, targetIp) →
        pool.refilling key = true → Suffices config pool key
  | _ => True

/-- The bucket is full, or will be when its refill has ended. -/
structure Supplied (config : Config) (pool : DirectPool) (key : PoolKey) : Prop where
  running : Suffices config pool key
  idle : pool.refilling key = false → config.poolSize ≤ (pool.idle key).length

theorem supply_mono {size length length' : Nat} (hlength : length ≤ length')
    {phase : RefillPhase} (hsupply : size ≤ length + phase.supply size length) :
    size ≤ length' + phase.supply size length' := by
  cases phase <;> simp only [RefillPhase.supply] at hsupply ⊢ <;> omega

/-! ## Steps -/

section Steps

variable {config : Config} {pool next : DirectPool} {label : DirectLabel} {key : PoolKey}

/-- A refill task moves on, and nothing leaves the bucket. -/
theorem Supplied.advance (hpool : Supplied config pool key) {index : Nat} {task : RefillTask}
    {phase : RefillPhase} (hrefills : next.refills = pool.refills.set index { task with phase })
    (hrefilling : next.refilling = pool.refilling)
    (hidle : (pool.idle key).length ≤ (next.idle key).length)
    (hphase : task.key = key → config.poolSize ≤ (next.idle key).length +
      phase.supply config.poolSize (next.idle key).length) : Supplied config next key := by
  refine ⟨?_, ?_⟩
  · intro other hother hkey
    rw [hrefills] at hother
    rcases List.mem_or_eq_of_mem_set hother with hother | rfl
    · exact supply_mono hidle (hpool.running other hother hkey)
    · exact hphase hkey
  · intro hfree
    rw [hrefilling] at hfree
    exact Nat.le_trans (hpool.idle hfree) hidle

theorem Supplied.task (hpool : Supplied config pool key) {index : Nat} {task : RefillTask}
    (htask : pool.refills[index]? = some task) (hkey : task.key = key) :
    config.poolSize ≤ (pool.idle key).length +
      task.phase.supply config.poolSize (pool.idle key).length :=
  hpool.running task (List.mem_of_getElem? htask) hkey

theorem Supplied.measure (hpool : Supplied config pool key) {index : Nat} {task : RefillTask} :
    Supplied config (refillMeasure config pool index task) key := by
  unfold refillMeasure
  simp only
  split
  next hfull =>
    refine hpool.advance rfl rfl (Nat.le_refl _) ?_
    rintro rfl
    exact hfull
  next hroom =>
    refine hpool.advance rfl rfl (Nat.le_refl _) ?_
    rintro rfl
    change config.poolSize ≤ (pool.idle task.key).length +
      (config.poolSize - (pool.idle task.key).length)
    omega

theorem Supplied.dial (hpool : Supplied config pool key) {index count : Nat} {task : RefillTask}
    (htask : pool.refills[index]? = some task) (hphase : task.phase = .dialing count) :
    Supplied config (refillDial pool index task count) key := by
  have hsupply : ∀ length, (if freshConnections pool count = [] then RefillPhase.releasing
      else .dialed (freshConnections pool count)).supply config.poolSize length = count := by
    intro length
    split
    next hempty =>
      have hzero : count = 0 := by simpa [freshConnections] using hempty
      exact hzero.symm
    next => simp [RefillPhase.supply, freshConnections]
  refine hpool.advance rfl rfl (Nat.le_refl _) ?_
  intro hkey
  have htask := hpool.task htask hkey
  rw [hphase] at htask
  rw [hsupply]
  exact htask

theorem Supplied.store (hpool : Supplied config pool key) {index now : Nat} {task : RefillTask}
    {connections : List Nat} (htask : pool.refills[index]? = some task)
    (hphase : task.phase = .dialed connections) :
    Supplied config (refillStore config pool index task connections now) key := by
  have hidle : ((refillStore config pool index task connections now).idle key).length =
      (pool.idle key).length + if key = task.key then
        min (config.poolSize - (pool.idle task.key).length) connections.length else 0 := by
    by_cases hkey : key = task.key
    · subst hkey
      simp [refillStore]
    · simp [refillStore, setBucket_of_ne _ _ hkey, hkey]
  refine hpool.advance rfl rfl (by omega) ?_
  intro hkey
  have htask := hpool.task htask hkey
  rw [hphase] at htask
  rw [hidle, hkey, if_pos rfl]
  simp only [RefillPhase.supply] at htask ⊢
  omega

theorem Supplied.release (hpool : Supplied config pool key) {index : Nat} {task : RefillTask}
    (htask : pool.refills[index]? = some task) (hphase : task.phase = .releasing) :
    Supplied config (refillRelease pool index task) key := by
  refine ⟨?_, ?_⟩
  · intro other hother hkey
    exact hpool.running other (List.mem_of_mem_eraseIdx hother) hkey
  · intro hfree
    by_cases hkey : key = task.key
    · have htask := hpool.task htask hkey.symm
      rwa [hphase] at htask
    · apply hpool.idle
      simpa [refillRelease, hkey] using hfree

/-- A new task measures the bucket after it was reserved. -/
theorem Supplied.spawn (hsize : config.poolSize ≠ 0)
    (hflight : SingleFlight RefillTask.key pool.refilling pool.refills)
    (hfree : ¬ pool.refilling key = true) (targetIp : String) :
    Supplied config (scheduleRefill config pool key targetIp) key := by
  have hspawn : ¬ (config.poolSize = 0 ∨ pool.refilling key = true) := not_or.mpr ⟨hsize, hfree⟩
  rw [scheduleRefill, if_neg hspawn]
  refine ⟨?_, fun hreserved => by simp at hreserved⟩
  intro task htask hkey
  rcases List.mem_append.mp htask with htask | htask
  · exact (hfree ((hflight.reserved_iff_exists key).mpr ⟨task, htask, hkey⟩)).elim
  · rw [List.mem_singleton.mp htask]
    change config.poolSize ≤ (pool.idle key).length +
      (config.poolSize - (pool.idle key).length)
    omega

/-- A refill of another key. -/
theorem Supplied.spawn_other (hpool : Supplied config pool key) {other : PoolKey}
    (hother : other ≠ key) (targetIp : String) :
    Supplied config (scheduleRefill config pool other targetIp) key := by
  unfold scheduleRefill
  split
  next => exact hpool
  next =>
    refine ⟨?_, ?_⟩
    · intro task htask hkey
      rcases List.mem_append.mp htask with htask | htask
      · exact hpool.running task htask hkey
      · rw [List.mem_singleton.mp htask] at hkey
        exact (hother hkey).elim
    · intro hfree
      have hne : ¬ key = other := fun heq => hother heq.symm
      exact hpool.idle (by simpa [hne] using hfree)

/-- `get` on another key. -/
theorem Supplied.get_other (hpool : Supplied config pool key) {other : PoolKey}
    (hother : other ≠ key) (targetIp : String) (allowRefill : Bool) (now : Nat)
    (closed : Nat → Bool) :
    Supplied config (getStep config pool other targetIp allowRefill now closed) key := by
  have hidle : (getStep config pool other targetIp allowRefill now closed).idle key =
      pool.idle key := setBucket_of_ne _ _ fun heq => hother heq.symm
  refine ⟨?_, ?_⟩
  · intro task htask hkey
    rw [hidle]
    exact hpool.running task htask hkey
  · intro hfree
    rw [hidle]
    exact hpool.idle hfree

/-- A pending request of the key, or what the bucket holds and still gets, makes
up for everything that was taken from it. -/
structure Tended (config : Config) (labels : List DirectLabel) (pool : DirectPool) : Prop where
  flight : SingleFlight RefillTask.key pool.refilling pool.refills
  capacity : WithinCapacity config pool
  supplied : ∀ key, Asked key labels → pool.Scheduling key ∨ Supplied config pool key

theorem Asked.of_append {before : List DirectLabel} (hasked : Asked key (before ++ [label]))
    (hlabel : ∀ targetIp allowRefill now closed, label ≠ .get key targetIp allowRefill now closed) :
    Asked key before := by
  obtain ⟨targetIp, allowRefill, now, closed, hmem⟩ := hasked
  rcases List.mem_append.mp hmem with hmem | hmem
  · exact ⟨targetIp, allowRefill, now, closed, hmem⟩
  · exact (hlabel _ _ _ _ (List.mem_singleton.mp hmem).symm).elim

theorem Tended.schedule {labels : List DirectLabel} (hpool : Tended config labels pool)
    (hsize : config.poolSize ≠ 0) {index : Nat} {other : PoolKey} {targetIp : String}
    (hpending : pool.scheduling[index]? = some (other, targetIp))
    (hrefused : RefusedInTime config pool (.schedule index)) (hasked : Asked key labels) :
    DirectPool.Scheduling
        { scheduleRefill config pool other targetIp with
          scheduling := pool.scheduling.eraseIdx index } key ∨
      Supplied config (scheduleRefill config pool other targetIp) key := by
  by_cases hother : other = key
  · subst hother
    right
    by_cases hreserved : pool.refilling other = true
    · have hsame : scheduleRefill config pool other targetIp = pool := if_pos (.inr hreserved)
      rw [hsame]
      refine ⟨hrefused other targetIp hpending hreserved, fun hfree => ?_⟩
      rw [hreserved] at hfree
      cases hfree
    · exact .spawn hsize hpool.flight hreserved targetIp
  · rcases hpool.supplied key hasked with ⟨ip, hscheduling⟩ | hsupplied
    · left
      obtain ⟨position, hposition⟩ := List.getElem?_of_mem hscheduling
      refine ⟨ip, List.mem_eraseIdx_iff_getElem?.mpr ⟨position, ?_, hposition⟩⟩
      rintro rfl
      rw [hpending] at hposition
      cases hposition
      exact hother rfl
    · exact .inr (hsupplied.spawn_other hother targetIp)

theorem Tended.step {labels : List DirectLabel} (hpool : Tended config labels pool)
    (hsize : config.poolSize ≠ 0) (hsucceeds : Succeeds pool label)
    (hrefused : RefusedInTime config pool label)
    (hstep : directStep config pool label = some next) :
    Tended config (labels ++ [label]) next := by
  have hmoves := directStep_moves hstep
  have hroom : WarmupHasRoom config pool label := by
    cases label with
    | warmupStore index now => exact hsucceeds.elim
    | _ => trivial
  refine ⟨directMoves_singleFlight hpool.flight hmoves, hpool.capacity.step hroom hstep, ?_⟩
  intro key hasked
  cases hmoves with
  | get other targetIp allowRefill now closed =>
      cases hsucceeds
      by_cases hother : other = key
      · subst hother
        exact .inl ⟨targetIp, by simp [getStep]⟩
      · have hbefore : Asked key labels := hasked.of_append (by simp [hother])
        rcases hpool.supplied key hbefore with ⟨ip, hscheduling⟩ | hsupplied
        · exact .inl ⟨ip, by simp [getStep, hscheduling]⟩
        · exact .inr (hsupplied.get_other hother targetIp true now closed)
  | schedule hpending =>
      have hbefore : Asked key labels := hasked.of_append (by simp)
      rcases hpool.schedule hsize hpending hrefused hbefore with hscheduling | hsupplied
      · exact .inl hscheduling
      · exact .inr ⟨hsupplied.running, hsupplied.idle⟩
  | refillMeasure htask hphase =>
      refine (hpool.supplied key (hasked.of_append (by simp))).imp (fun hscheduling => ?_)
        fun hsupplied => hsupplied.measure
      unfold Pool.refillMeasure
      simp only
      split <;> exact hscheduling
  | refillDial htask hphase hcount =>
      cases hsucceeds _ _ htask hphase
      exact (hpool.supplied key (hasked.of_append (by simp))).imp id
        fun hsupplied => hsupplied.dial htask hphase
  | refillStore htask hphase =>
      exact (hpool.supplied key (hasked.of_append (by simp))).imp id
        fun hsupplied => hsupplied.store htask hphase
  | refillRelease htask hphase =>
      exact (hpool.supplied key (hasked.of_append (by simp))).imp id
        fun hsupplied => hsupplied.release htask hphase
  | warmupStart htask hphase hfree => exact hsucceeds.elim
  | warmupDial htask hphase hcount => exact hsucceeds.elim
  | warmupStore htask hphase => exact hsucceeds.elim

end Steps

/-! ## Runs -/

/-- In a run of clients that allow refills and of refill tasks whose dials all
succeed, a bucket that a client has looked into holds `pool_size` connections
whenever no request and no refill of its key is under way, provided that every
`get` that was refused its own refill found the running one sufficient. -/
theorem pool_hit_replenished (config : Config) (hsize : config.poolSize ≠ 0)
    (labels : List DirectLabel) (pool : DirectPool)
    (hrun : (directSystem config).run labels = some pool)
    (hsucceeds : ∀ state label, (directSystem config).Takes labels state label →
      Succeeds state label)
    (hrefused : ∀ state label, (directSystem config).Takes labels state label →
      RefusedInTime config state label)
    (key : PoolKey) (hasked : Asked key labels) (hscheduled : ¬ pool.Scheduling key)
    (hended : ∀ task ∈ pool.refills, task.key ≠ key) :
    (pool.idle key).length = config.poolSize := by
  have hstart : Tended config [] (directSystem config).start := by
    refine ⟨.nil fun _ => rfl, fun _ => Nat.zero_le _, ?_⟩
    rintro key ⟨_, _, _, _, hmem⟩
    cases hmem
  have htended : Tended config labels pool :=
    (directSystem config).run_induct (Tended config) hstart
      (fun before state label next _ htakes hstep hstate =>
        hstate.step hsize (hsucceeds state label htakes) (hrefused state label htakes) hstep) hrun
  have hsupplied := (htended.supplied key hasked).resolve_left hscheduled
  have hfree : pool.refilling key = false := htended.flight.free_of_forall hended
  exact Nat.le_antisymm (htended.capacity key) (hsupplied.idle hfree)

/-- One data centre with two pooled connections for each class. -/
def twoSlotConfig : Config := { poolSize := 2, dcIp := [(2, "149.154.167.220")] }

/-- A first client has the bucket filled. A second and a third one take both connections, and
the third one finds the refill of the second one reserved and not yet at work. -/
def toppedUpRun : List DirectLabel :=
  let get : DirectLabel := .get (2, false) "149.154.167.220" true 0 (fun _ => false)
  [get, .schedule 0, .refillMeasure 0, .refillDial 0 2, .refillStore 0 0, .refillRelease 0,
    get, .schedule 0, get, .schedule 0, .refillMeasure 0, .refillDial 0 2, .refillStore 0 0,
    .refillRelease 0]

theorem pool_hit_replenished_toppedUpRun :
    (∃ state, (directSystem twoSlotConfig).Takes toppedUpRun state (.schedule 0) ∧
      state.refilling (2, false) = true) ∧
    ∃ pool, (directSystem twoSlotConfig).run toppedUpRun = some pool ∧ pool.served.length = 2 ∧
      (pool.idle (2, false)).length = twoSlotConfig.poolSize := by
  have hsucceeds : (directSystem twoSlotConfig).Along Succeeds
      (directSystem twoSlotConfig).start toppedUpRun := by
    refine .cons _ rfl rfl (.cons _ trivial rfl (.cons _ trivial rfl
      (.cons _ ?_ rfl (.cons _ trivial rfl (.cons _ trivial rfl (.cons _ rfl rfl
        (.cons _ trivial rfl (.cons _ rfl rfl (.cons _ trivial rfl (.cons _ trivial rfl
          (.cons _ ?_ rfl (.cons _ trivial rfl (.cons _ trivial rfl (.nil _))))))))))))))
    · rintro task needed ⟨⟩ ⟨⟩
      rfl
    · rintro task needed ⟨⟩ ⟨⟩
      rfl
  have hrefused : (directSystem twoSlotConfig).Along (RefusedInTime twoSlotConfig)
      (directSystem twoSlotConfig).start toppedUpRun := by
    refine .cons _ trivial rfl (.cons _ ?_ rfl (.cons _ trivial rfl
      (.cons _ trivial rfl (.cons _ trivial rfl (.cons _ trivial rfl (.cons _ trivial rfl
        (.cons _ ?_ rfl (.cons _ trivial rfl (.cons _ ?_ rfl (.cons _ trivial rfl
          (.cons _ trivial rfl (.cons _ trivial rfl (.cons _ trivial rfl (.nil _))))))))))))))
    · intro key targetIp hpending hreserved
      cases hreserved
    · rintro key targetIp ⟨⟩ hreserved
      cases hreserved
    · rintro key targetIp ⟨⟩ hreserved task hmem hkey
      cases List.mem_singleton.mp hmem
      exact Nat.le_refl 2
  refine ⟨⟨_, ⟨toppedUpRun.take 9, toppedUpRun.drop 10, rfl, rfl⟩, rfl⟩, _, rfl, rfl,
    pool_hit_replenished twoSlotConfig (by decide) toppedUpRun _ rfl
      (fun _ _ htakes => hsucceeds.takes _ htakes) (fun _ _ htakes => hrefused.takes _ htakes)
      (2, false) ⟨_, _, _, _, List.mem_cons_self⟩ ?_ ?_⟩
  · rintro ⟨targetIp, hmem⟩
    cases hmem
  · intro task hmem
    cases hmem

/-- A first client has the bucket filled. A second one takes a connection, and its
refill is dialling the one that is missing when a third one takes the other. -/
def lostWakeUpRun : List DirectLabel :=
  let get : DirectLabel := .get (2, false) "149.154.167.220" true 0 (fun _ => false)
  [get, .schedule 0, .refillMeasure 0, .refillDial 0 2, .refillStore 0 0, .refillRelease 0,
    get, .schedule 0, .refillMeasure 0, get, .schedule 0, .refillDial 0 1, .refillStore 0 0,
    .refillRelease 0]

theorem pool_hit_not_replenished :
    ∃ pool, (directSystem twoSlotConfig).run lostWakeUpRun = some pool ∧
      (∀ state label, (directSystem twoSlotConfig).Takes lostWakeUpRun state label →
        Succeeds state label) ∧
      Asked (2, false) lostWakeUpRun ∧ pool.scheduling = [] ∧ pool.refills = [] ∧
      twoSlotConfig.poolSize = 2 ∧ (pool.idle (2, false)).length = 1 := by
  have hsucceeds : (directSystem twoSlotConfig).Along Succeeds
      (directSystem twoSlotConfig).start lostWakeUpRun := by
    refine .cons _ rfl rfl (.cons _ trivial rfl (.cons _ trivial rfl
      (.cons _ ?_ rfl (.cons _ trivial rfl (.cons _ trivial rfl (.cons _ rfl rfl
        (.cons _ trivial rfl (.cons _ trivial rfl (.cons _ rfl rfl (.cons _ trivial rfl
          (.cons _ ?_ rfl (.cons _ trivial rfl (.cons _ trivial rfl (.nil _))))))))))))))
    · rintro task needed ⟨⟩ ⟨⟩
      rfl
    · rintro task needed ⟨⟩ ⟨⟩
      rfl
  exact ⟨_, rfl, fun _ _ htakes => hsucceeds.takes _ htakes,
    ⟨_, _, _, _, List.mem_cons_self⟩, rfl, rfl, rfl, rfl⟩

end TgWsProxy.Pool
