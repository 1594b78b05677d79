import Mathlib.Data.List.Basic
import TgWsProxy.Foundation.Machine

/-!
# Cloudflare names

The rotation over a domain list and the order in which the inline path tries
the records of a data centre.
-/

namespace TgWsProxy.Cloudflare

open Foundation.Machine

/-- The record of a data centre in a Cloudflare zone: `kws{dc}.{domain}`. -/
def kwsRecord (dc : Nat) (domain : String) : String := "kws" ++ toString dc ++ "." ++ domain

/-- The outcome of one WebSocket connection attempt. -/
inductive WsConnectResult (Ws : Type)
  | connected (ws : Ws)
  | redirect (code : Nat)
  | failed (reason : String)
  | connectTimedOut (reason : String)
  | timedOut
  deriving DecidableEq, Repr

/-! ## Rotation -/

/-- The first index of a walk over the list, and the shared counter afterwards. -/
def balanceOffset (width : PointerWidth) (domains : List String) (enabled : Bool)
    (counter : Nat) : Nat × Nat :=
  let n := domains.length
  if !enabled ∨ n ≤ 1 then (0, counter) else (counter % n, width.wrappingAdd counter 1)

/-- The list from index `first` on, wrapping around. -/
def domainOrder (domains : List String) (first : Nat) : List String :=
  (List.range domains.length).filterMap fun offset => domains[(first + offset) % domains.length]?

theorem domainOrder_eq_cons {domains : List String} {first : Nat} {domain : String}
    (hdomain : domains[first % domains.length]? = some domain) :
    ∃ rest, domainOrder domains first = domain :: rest := by
  obtain ⟨turns, hturns⟩ : ∃ turns, List.range domains.length = 0 :: turns := by
    cases domains with
    | nil => cases hdomain
    | cons head tail => exact ⟨_, List.range_succ_eq_map⟩
  unfold domainOrder
  rw [hturns, List.filterMap_cons, Nat.add_zero, hdomain]
  exact ⟨_, rfl⟩

theorem domainOrder_head {domains : List String} (hdomains : domains ≠ []) (first : Nat) :
    ∃ domain ∈ domains, (domainOrder domains first).head? = some domain := by
  have hlt : first % domains.length < domains.length :=
    Nat.mod_lt _ (List.length_pos_of_ne_nil hdomains)
  obtain ⟨rest, hrest⟩ := domainOrder_eq_cons (List.getElem?_eq_getElem hlt)
  exact ⟨_, List.getElem_mem hlt, by rw [hrest, List.head?_cons]⟩

/-- A rotation reaches every index. -/
theorem exists_rotation {count index : Nat} (first : Nat) (hindex : index < count) :
    ∃ offset < count, (first + offset) % count = index := by
  have hcount : 0 < count := Nat.zero_lt_of_lt hindex
  refine ⟨(index + (count - first % count)) % count, Nat.mod_lt _ hcount, ?_⟩
  have hturn : first + (index + (count - first % count)) =
      index + count * (first / count + 1) := by
    have hdiv := Nat.div_add_mod first count
    have hmod := Nat.mod_lt first hcount
    rw [Nat.mul_add, Nat.mul_one]
    omega
  rw [Nat.add_mod_mod, hturn, Nat.add_mul_mod_self_left, Nat.mod_eq_of_lt hindex]

theorem mem_domainOrder {domains : List String} {domain : String} (first : Nat)
    (hmem : domain ∈ domains) : domain ∈ domainOrder domains first := by
  obtain ⟨index, hindex, rfl⟩ := List.getElem_of_mem hmem
  obtain ⟨offset, hoffset, hturn⟩ := exists_rotation first hindex
  refine List.mem_filterMap.mpr ⟨offset, List.mem_range.mpr hoffset, ?_⟩
  rw [hturn]
  exact List.getElem?_eq_getElem hindex

/-! ## Attempts -/

/-- The iterator over the records to attempt. Each record is attempted twice in a
row, unless the first attempt timed out; repeated domains are skipped. -/
structure CfAttempts where
  dc : Nat
  domains : List String
  firstDomain : Nat
  nextOrdinal : Nat
  pendingRetry : Option (Fin domains.length)

namespace CfAttempts

def withOffset (dc : Nat) (domains : List String) (firstDomain : Nat) : CfAttempts where
  dc := dc
  domains := domains
  firstDomain := if domains = [] then 0 else firstDomain % domains.length
  nextOrdinal := 0
  pendingRetry := none

def hostname (attempts : CfAttempts) (index : Fin attempts.domains.length) : String :=
  kwsRecord attempts.dc (attempts.domains.get index)

/-- `(first_domain + ordinal) % domains.len()`. -/
def rotated (attempts : CfAttempts) (ordinal : Nat) (hordinal : ordinal < attempts.domains.length) :
    Fin attempts.domains.length :=
  ⟨(attempts.firstDomain + ordinal) % attempts.domains.length, Nat.mod_lt _ (by omega)⟩

/-- Whether the domain at `index` already came up before `ordinal`. -/
def seenBefore (attempts : CfAttempts) (ordinal : Nat) (index : Fin attempts.domains.length) :
    Bool :=
  (List.range ordinal).any fun prior =>
    attempts.domains[(attempts.firstDomain + prior) % attempts.domains.length]? ==
      some (attempts.domains.get index)

/-- The `while` loop of `next_domain`, with the number of turns it has left. -/
def search (attempts : CfAttempts) : Nat → Nat → Option (Nat × Fin attempts.domains.length)
  | 0, _ => none
  | turns + 1, ordinal =>
      if hordinal : ordinal < attempts.domains.length then
        let index := attempts.rotated ordinal hordinal
        if attempts.seenBefore ordinal index then attempts.search turns (ordinal + 1)
        else some (ordinal + 1, index)
      else none

/-- The next record to attempt, and the iterator afterwards. -/
def nextDomain (attempts : CfAttempts) : Option String × CfAttempts :=
  match attempts.pendingRetry with
  | some index => (some (attempts.hostname index), { attempts with pendingRetry := none })
  | none =>
      match attempts.search (attempts.domains.length - attempts.nextOrdinal)
          attempts.nextOrdinal with
      | some (ordinal, index) =>
          (some (attempts.hostname index),
            { attempts with nextOrdinal := ordinal, pendingRetry := some index })
      | none => (none, { attempts with nextOrdinal := attempts.domains.length })

/-- The attempt just returned hit the connect timeout, so it is not retried. -/
def noteTimedOut (attempts : CfAttempts) : CfAttempts := { attempts with pendingRetry := none }

/-- Every record the iterator returns is a record of its data centre, and the
iterator stays on its list. -/
theorem nextDomain_record {attempts next : CfAttempts} {record : Option String}
    (hnext : attempts.nextDomain = (record, next)) :
    next.dc = attempts.dc ∧ next.domains = attempts.domains ∧
      ∀ name, record = some name →
        ∃ domain ∈ attempts.domains, name = kwsRecord attempts.dc domain := by
  unfold nextDomain at hnext
  split at hnext
  next index _ =>
    cases hnext
    refine ⟨rfl, rfl, ?_⟩
    rintro name ⟨⟩
    exact ⟨_, List.get_mem _ _, rfl⟩
  next =>
    split at hnext
    next ordinal index _ =>
      cases hnext
      refine ⟨rfl, rfl, ?_⟩
      rintro name ⟨⟩
      exact ⟨_, List.get_mem _ _, rfl⟩
    next =>
      cases hnext
      exact ⟨rfl, rfl, fun name hname => nomatch hname⟩

/-! ### Termination -/

/-- How many records the iterator can still return. -/
def remaining (attempts : CfAttempts) : Nat :=
  2 * (attempts.domains.length - attempts.nextOrdinal) +
    if attempts.pendingRetry.isSome then 1 else 0

/-- What the loop finds: the first ordinal from `start` on whose domain did not
come up before. -/
theorem search_eq_some {attempts : CfAttempts} {turns start ordinal : Nat}
    {index : Fin attempts.domains.length}
    (hsearch : attempts.search turns start = some (ordinal, index)) :
    ∃ found, ∃ hfound : found < attempts.domains.length, start ≤ found ∧ ordinal = found + 1 ∧
      index = attempts.rotated found hfound ∧
      ∀ skipped, ∀ hskipped : skipped < attempts.domains.length, start ≤ skipped →
        skipped < found → attempts.seenBefore skipped (attempts.rotated skipped hskipped) := by
  induction turns generalizing start with
  | zero => cases hsearch
  | succ turns ih =>
      simp only [search] at hsearch
      split at hsearch
      next hstart =>
        split at hsearch
        next hseen =>
          -- The ordinal just skipped joins those that the rest of the loop skips.
          obtain ⟨found, hfound, hle, hordinal, hindex, hskip⟩ := ih hsearch
          refine ⟨found, hfound, by omega, hordinal, hindex, ?_⟩
          intro skipped hskipped hge hlt
          rcases Nat.eq_or_lt_of_le hge with rfl | hgt
          · exact hseen
          · exact hskip skipped hskipped hgt hlt
        next =>
          cases hsearch
          exact ⟨start, hstart, Nat.le_refl _, rfl, rfl, fun _ _ hge hlt => by omega⟩
      next => cases hsearch

theorem nextDomain_remaining {attempts next : CfAttempts} {record : String}
    (hnext : attempts.nextDomain = (some record, next)) : next.remaining < attempts.remaining := by
  unfold nextDomain at hnext
  split at hnext
  next index hpending =>
    cases hnext
    simp [remaining, hpending]
  next hpending =>
    split at hnext
    next ordinal index hsearch =>
      cases hnext
      -- A new ordinal costs two and gives one back as the pending retry.
      obtain ⟨found, hfound, hle, rfl, -, -⟩ := search_eq_some hsearch
      simp only [remaining, hpending, Option.isSome_some, Option.isSome_none, if_true]
      simp only [Bool.false_eq_true, if_false]
      omega
    next => cases hnext

theorem noteTimedOut_remaining (attempts : CfAttempts) :
    attempts.noteTimedOut.remaining ≤ attempts.remaining := by
  simp [remaining, noteTimedOut]

/-! ### Coverage -/

/-- The records of all ordinals that the iterator has passed are among the given
ones. -/
def Covered (attempts : CfAttempts) (records : List String) : Prop :=
  ∀ ordinal, ∀ hordinal : ordinal < attempts.domains.length, ordinal < attempts.nextOrdinal →
    attempts.hostname (attempts.rotated ordinal hordinal) ∈ records

theorem exists_prior_of_seenBefore {attempts : CfAttempts} {ordinal : Nat}
    {index : Fin attempts.domains.length} (hordinal : ordinal < attempts.domains.length)
    (hseen : attempts.seenBefore ordinal index) :
    ∃ prior, ∃ hprior : prior < attempts.domains.length, prior < ordinal ∧
      attempts.hostname (attempts.rotated prior hprior) = attempts.hostname index := by
  obtain ⟨prior, hprior, heq⟩ := List.any_eq_true.mp hseen
  have hlt : prior < ordinal := List.mem_range.mp hprior
  refine ⟨prior, by omega, hlt, ?_⟩
  have hget := eq_of_beq heq
  obtain ⟨_, hget⟩ := List.getElem?_eq_some_iff.mp hget
  exact congrArg (kwsRecord attempts.dc) hget

/-- Ordinals whose domain came up before add no record. -/
theorem covered_of_seen {attempts : CfAttempts} {records : List String} (stop : Nat)
    (hcovered : attempts.Covered records)
    (hseen : ∀ skipped, ∀ hskipped : skipped < attempts.domains.length,
      attempts.nextOrdinal ≤ skipped → skipped < stop →
        attempts.seenBefore skipped (attempts.rotated skipped hskipped)) :
    ∀ ordinal, ∀ hordinal : ordinal < attempts.domains.length, ordinal < stop →
      attempts.hostname (attempts.rotated ordinal hordinal) ∈ records := by
  intro ordinal
  induction ordinal using Nat.strongRecOn with
  | ind ordinal ih =>
      intro hordinal hstop
      rcases Nat.lt_or_ge ordinal attempts.nextOrdinal with hpassed | hahead
      · exact hcovered ordinal hordinal hpassed
      · obtain ⟨prior, hprior, hlt, heq⟩ :=
          exists_prior_of_seenBefore hordinal (hseen ordinal hordinal hahead hstop)
        -- Either the earlier ordinal was passed, or it was skipped for one still earlier.
        rw [← heq]
        exact ih prior hlt hprior (Nat.lt_trans hlt hstop)

theorem Covered.mono {attempts : CfAttempts} {records more : List String}
    (hcovered : attempts.Covered records) (hmore : ∀ record ∈ records, record ∈ more) :
    attempts.Covered more :=
  fun ordinal hordinal hpassed => hmore _ (hcovered ordinal hordinal hpassed)

theorem Covered.nextDomain {attempts next : CfAttempts} {records : List String} {record : String}
    (hcovered : attempts.Covered records) (hnext : attempts.nextDomain = (some record, next)) :
    next.Covered (record :: records) := by
  unfold CfAttempts.nextDomain at hnext
  split at hnext
  next index _ =>
    cases hnext
    exact hcovered.mono fun _ hmem => List.mem_cons_of_mem _ hmem
  next =>
    split at hnext
    next ordinal index hsearch =>
      cases hnext
      obtain ⟨found, hfound, _, rfl, rfl, hskip⟩ := search_eq_some hsearch
      have hbelow := covered_of_seen found hcovered hskip
      intro ordinal hordinal hpassed
      rcases Nat.lt_or_eq_of_le (Nat.le_of_lt_succ hpassed) with hlt | rfl
      · exact List.mem_cons_of_mem _ (hbelow ordinal hordinal hlt)
      · exact List.mem_cons_self
    next => cases hnext

theorem search_eq_none {attempts : CfAttempts} {turns start : Nat}
    (hturns : attempts.domains.length ≤ start + turns)
    (hsearch : attempts.search turns start = none) :
    ∀ skipped, ∀ hskipped : skipped < attempts.domains.length, start ≤ skipped →
      attempts.seenBefore skipped (attempts.rotated skipped hskipped) := by
  induction turns generalizing start with
  | zero =>
      intro skipped hskipped hge
      omega
  | succ turns ih =>
      intro skipped hskipped hge
      simp only [search] at hsearch
      split at hsearch
      next hstart =>
        split at hsearch
        next hseen =>
          rcases Nat.eq_or_lt_of_le hge with rfl | hgt
          · exact hseen
          · exact ih (by omega) hsearch skipped hskipped hgt
        next => cases hsearch
      next => omega

/-- When the iterator is exhausted, the records of all domains have come up. -/
theorem Covered.exhausted {attempts next : CfAttempts} {records : List String}
    (hcovered : attempts.Covered records) (hnext : attempts.nextDomain = (none, next)) :
    ∀ domain ∈ attempts.domains, kwsRecord attempts.dc domain ∈ records := by
  unfold CfAttempts.nextDomain at hnext
  split at hnext
  next => cases hnext
  next =>
    split at hnext
    next => cases hnext
    next hsearch =>
      have hseen := search_eq_none (by omega) hsearch
      have hall := covered_of_seen attempts.domains.length hcovered
        fun skipped hskipped hge _ => hseen skipped hskipped hge
      intro domain hmem
      obtain ⟨index, hindex, rfl⟩ := List.getElem_of_mem hmem
      obtain ⟨offset, hoffset, hturn⟩ := exists_rotation attempts.firstDomain hindex
      have hrecord := hall offset hoffset hoffset
      have hrotated : attempts.rotated offset hoffset = ⟨index, hindex⟩ := Fin.ext hturn
      rw [hrotated] at hrecord
      exact hrecord

/-- A fresh walk starts at the record of the domain that the rotation names. -/
theorem withOffset_nextDomain (dc : Nat) {domains : List String} {firstDomain : Nat}
    {domain : String} (hdomain : domains[firstDomain % domains.length]? = some domain) :
    ∃ attempts, (withOffset dc domains firstDomain).nextDomain =
      (some (kwsRecord dc domain), attempts) := by
  obtain ⟨hlt, rfl⟩ := List.getElem?_eq_some_iff.mp hdomain
  cases domains with
  | nil => cases hdomain
  | cons head rest =>
      refine ⟨_, Prod.ext (congrArg some ?_) rfl⟩
      simp [hostname, rotated, withOffset]

end CfAttempts

end TgWsProxy.Cloudflare
