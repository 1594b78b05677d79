import TgWsProxy.Routing.Model

/-!
# The schedule of the Cloudflare-proxy attempts

The iterator over the records is changed from outside between two of its calls: a
timeout takes back the retry that it had in mind. Here is the whole schedule that comes
out of this, for every list of domains, every offset and every sequence of outcomes.
-/

namespace TgWsProxy.Routing

open Foundation.Effect TgWsProxy.Cloudflare
open Foundation.Effect.Program (Runs)

/-! ## Domains that are left -/

section Unseen

variable {α : Type} [DecidableEq α] {seen rest : List α} {element : α}

/-- The elements of `rest` that are not among the ones seen before, each once and in the
order of its first occurrence. -/
def unseen (seen rest : List α) : List α := (rest.removeAll seen).eraseDups

theorem unseen_nil (rest : List α) : unseen [] rest = rest.eraseDups := by
  simp [unseen, List.removeAll]

theorem unseen_cons_of_mem (hseen : element ∈ seen) :
    unseen seen (element :: rest) = unseen (seen ++ [element]) rest := by
  unfold unseen
  rw [List.cons_removeAll, if_neg (by simpa using hseen)]
  congr 1
  apply List.filter_congr
  intro other _
  by_cases hother : other = element
  · simp [hother, hseen]
  · simp [hother]

theorem unseen_cons_of_not_mem (hnew : element ∉ seen) :
    unseen seen (element :: rest) = element :: unseen (seen ++ [element]) rest := by
  unfold unseen
  rw [List.cons_removeAll, if_pos (by simpa using hnew), List.eraseDups_cons]
  congr 2
  unfold List.removeAll
  rw [List.filter_filter]
  apply List.filter_congr
  intro other _
  by_cases hother : other = element
  · simp [hother]
  · simp [hother]

end Unseen

/-! ## The iterator -/

theorem domainOrder_eq_map (domains : List String) (first : Nat) :
    domainOrder domains first = (List.range domains.length).map fun offset =>
      domains.getD ((first + offset) % domains.length) "" := by
  unfold domainOrder
  rw [← List.filterMap_eq_map]
  apply List.filterMap_congr
  intro offset hoffset
  have hlt : (first + offset) % domains.length < domains.length :=
    Nat.mod_lt _ (Nat.zero_lt_of_lt (List.mem_range.mp hoffset))
  simp [List.getElem?_eq_getElem hlt]

/-- The domains from the first one of the walk on. -/
def order (attempts : CfAttempts) : List String :=
  domainOrder attempts.domains attempts.firstDomain

/-- The domains that the iterator has not come to yet. -/
def upcoming (attempts : CfAttempts) : List String :=
  unseen ((order attempts).take attempts.nextOrdinal) ((order attempts).drop attempts.nextOrdinal)

section Iterator

variable {attempts : CfAttempts}

theorem getElem?_rotated {ordinal : Nat} (hordinal : ordinal < attempts.domains.length) :
    attempts.domains[(attempts.firstDomain + ordinal) % attempts.domains.length]? =
      some (attempts.domains.get (attempts.rotated ordinal hordinal)) :=
  List.getElem?_eq_getElem (attempts.rotated ordinal hordinal).2

theorem order_getElem? {ordinal : Nat} (hordinal : ordinal < attempts.domains.length) :
    (order attempts)[ordinal]? =
      some (attempts.domains.get (attempts.rotated ordinal hordinal)) := by
  rw [order, domainOrder_eq_map, List.getElem?_map, List.getElem?_range hordinal, Option.map_some,
    List.getD_eq_getElem?_getD, getElem?_rotated hordinal, Option.getD_some]

theorem order_drop_of_le {ordinal : Nat} (hordinal : attempts.domains.length ≤ ordinal) :
    (order attempts).drop ordinal = [] := by
  apply List.drop_eq_nil_of_le
  rwa [order, domainOrder_eq_map, List.length_map, List.length_range]

theorem seenBefore_iff {ordinal : Nat} (hordinal : ordinal < attempts.domains.length)
    (index : Fin attempts.domains.length) :
    attempts.seenBefore ordinal index = true ↔
      attempts.domains.get index ∈ (order attempts).take ordinal := by
  unfold CfAttempts.seenBefore
  rw [List.any_eq_true, List.mem_iff_getElem?]
  constructor
  · rintro ⟨prior, hprior, heq⟩
    have hlt : prior < ordinal := List.mem_range.mp hprior
    refine ⟨prior, ?_⟩
    rw [List.getElem?_take_of_lt hlt, order_getElem? (hlt.trans hordinal),
      ← getElem?_rotated (hlt.trans hordinal)]
    exact eq_of_beq heq
  · rintro ⟨prior, hprior⟩
    rw [List.getElem?_take] at hprior
    split at hprior
    next hlt =>
      refine ⟨prior, List.mem_range.mpr hlt, ?_⟩
      rw [getElem?_rotated (hlt.trans hordinal), ← order_getElem? (hlt.trans hordinal), hprior]
      exact beq_self_eq_true _
    next => cases hprior

/-- One turn of the search for the next domain. -/
theorem unseen_order {ordinal : Nat} (hordinal : ordinal < attempts.domains.length) :
    unseen ((order attempts).take ordinal) ((order attempts).drop ordinal) =
      if attempts.seenBefore ordinal (attempts.rotated ordinal hordinal) then
        unseen ((order attempts).take (ordinal + 1)) ((order attempts).drop (ordinal + 1))
      else
        attempts.domains.get (attempts.rotated ordinal hordinal) ::
          unseen ((order attempts).take (ordinal + 1)) ((order attempts).drop (ordinal + 1)) := by
  obtain ⟨hlt, hget⟩ := List.getElem?_eq_some_iff.mp (order_getElem? hordinal)
  rw [List.drop_eq_getElem_cons hlt, List.take_succ_eq_append_getElem hlt, hget]
  split
  next hseen => exact unseen_cons_of_mem ((seenBefore_iff hordinal _).mp hseen)
  next hnew =>
    apply unseen_cons_of_not_mem
    exact fun hmem => hnew ((seenBefore_iff hordinal _).mpr hmem)

theorem search_unseen {turns start : Nat} (hturns : attempts.domains.length ≤ start + turns) :
    match attempts.search turns start with
    | none => unseen ((order attempts).take start) ((order attempts).drop start) = []
    | some (ordinal, index) =>
        unseen ((order attempts).take start) ((order attempts).drop start) =
          attempts.domains.get index ::
            unseen ((order attempts).take ordinal) ((order attempts).drop ordinal) := by
  induction turns generalizing start with
  | zero =>
      simp only [CfAttempts.search]
      rw [order_drop_of_le (by omega)]
      rfl
  | succ turns ih =>
      simp only [CfAttempts.search]
      by_cases hstart : start < attempts.domains.length
      · rw [dif_pos hstart, unseen_order hstart]
        by_cases hseen : attempts.seenBefore start (attempts.rotated start hstart) = true
        · rw [if_pos hseen, if_pos hseen]
          exact ih (by omega)
        · rw [if_neg hseen, if_neg hseen]
      · rw [dif_neg hstart, order_drop_of_le (by omega)]
        rfl

/-- Without a retry in mind, the iterator comes to the first of the domains that are
left, and has its retry in mind then. -/
theorem nextDomain_upcoming (hpending : attempts.pendingRetry = none) :
    (upcoming attempts = [] ∧ ∃ next, attempts.nextDomain = (none, next)) ∨
      ∃ domain rest next, upcoming attempts = domain :: rest ∧
        attempts.nextDomain = (some (kwsRecord attempts.dc domain), next) ∧
        next.nextDomain = (some (kwsRecord attempts.dc domain), next.noteTimedOut) ∧
        next.dc = attempts.dc ∧ upcoming next = rest := by
  have hsearch := @search_unseen attempts (attempts.domains.length - attempts.nextOrdinal)
    attempts.nextOrdinal (by omega)
  simp only [CfAttempts.nextDomain, hpending]
  split at hsearch
  next hnone =>
    rw [hnone]
    exact .inl ⟨hsearch, _, rfl⟩
  next ordinal index hsome =>
    rw [hsome]
    exact .inr ⟨_, _, _, hsearch, rfl, rfl, rfl, rfl⟩

end Iterator

/-! ## The schedule -/

section Schedule

variable {Ws Conn : Type}

def isRedirected : WsConnectResult Ws → Bool
  | .redirect _ => true
  | .connected _ | .failed _ | .connectTimedOut _ | .timedOut => false

def isTimedOut : WsConnectResult Ws → Bool
  | .timedOut | .connectTimedOut _ => true
  | .connected _ | .redirect _ | .failed _ => false

def isConnected : WsConnectResult Ws → Bool
  | .connected _ => true
  | .redirect _ | .failed _ | .connectTimedOut _ | .timedOut => false

theorem not_isConnected_of_isTimedOut {result : WsConnectResult Ws}
    (htimeout : isTimedOut result = true) : isConnected result = false := by
  cases result with
  | connected => cases htimeout
  | redirect | failed | connectTimedOut | timedOut => rfl

/-- The attempts, with their outcomes, for a list of distinct domains: one attempt for a
domain whose first attempt timed out, otherwise two in a row, and none after a success. -/
inductive Scheduled (dc : Nat) : List String → List (String × WsConnectResult Ws) → Prop
  | exhausted : Scheduled dc [] []
  | connected {domain : String} {rest : List String} (ws : Ws) :
      Scheduled dc (domain :: rest) [(kwsRecord dc domain, .connected ws)]
  | timedOut {domain : String} {rest : List String} {result : WsConnectResult Ws}
      {attempts : List (String × WsConnectResult Ws)} (hresult : isTimedOut result = true)
      (hrest : Scheduled dc rest attempts) :
      Scheduled dc (domain :: rest) ((kwsRecord dc domain, result) :: attempts)
  | retryConnected {domain : String} {rest : List String} {result : WsConnectResult Ws}
      (hresult : isTimedOut result = false) (hfailed : isConnected result = false) (ws : Ws) :
      Scheduled dc (domain :: rest)
        [(kwsRecord dc domain, result), (kwsRecord dc domain, .connected ws)]
  | retryFailed {domain : String} {rest : List String} {result retried : WsConnectResult Ws}
      {attempts : List (String × WsConnectResult Ws)} (hresult : isTimedOut result = false)
      (hfailed : isConnected result = false) (hretried : isConnected retried = false)
      (hrest : Scheduled dc rest attempts) :
      Scheduled dc (domain :: rest)
        ((kwsRecord dc domain, result) :: (kwsRecord dc domain, retried) :: attempts)

/-- What the walk returns after its attempts: the connection and the record of the last
attempt, or whether there were only redirects. -/
def concluded (allRedirects : Bool) (attempts : List (String × WsConnectResult Ws)) :
    Option Ws × Option String × Bool :=
  match attempts.getLast? with
  | some (record, .connected ws) => (some ws, some record, false)
  | _ => (none, none, allRedirects && attempts.all fun attempt => isRedirected attempt.2)

/-- The dial of a record by the walk of a connection, with its answer. -/
def dialEvent (route : Route) (attempt : String × WsConnectResult Ws) : Event (sig Ws Conn) :=
  ⟨.connectCf attempt.1 "/apiws" true route.config.skipTlsVerify route.config.cfConnectTimeout
    route.config.cfDisableTls route.config.cfFailCooldown, attempt.2⟩

theorem concluded_cons {record : String} {result : WsConnectResult Ws}
    (hresult : isConnected result = false) (allRedirects : Bool)
    (attempts : List (String × WsConnectResult Ws)) :
    concluded allRedirects ((record, result) :: attempts) =
      concluded (allRedirects && isRedirected result) attempts := by
  cases attempts with
  | nil =>
      cases result with
      | connected ws => cases hresult
      | redirect | failed | connectTimedOut | timedOut => simp [concluded]
  | cons next rest =>
      simp only [concluded, List.getLast?_cons_cons, List.all_cons, Bool.and_assoc]

variable (route : Route) {attempts next : CfAttempts} {allRedirects : Bool}

/-- One turn of the loop. -/
theorem runs_connectCfRecords_some {record : String} {trace : Trace (sig Ws Conn)}
    {value : Option Ws × Option String × Bool}
    (hnext : attempts.nextDomain = (some record, next)) :
    Runs (route.connectCfRecords attempts allRedirects) trace value ↔
      (∃ ws, trace = [dialEvent route (record, .connected ws)] ∧
        value = (some ws, some record, false)) ∨
      ∃ result rest, trace = dialEvent route (record, result) :: rest ∧
        isConnected result = false ∧
        Runs (route.connectCfRecords (if isTimedOut result then next.noteTimedOut else next)
          (allRedirects && isRedirected result)) rest value := by
  rw [Route.connectCfRecords]
  split
  next hnone => cases hnone.symm.trans hnext
  next found rest hsome =>
    cases hsome.symm.trans hnext
    constructor
    · intro hrun
      cases hrun with
      | call reply hrest =>
          cases reply with
          | connected ws =>
              cases hrest
              exact .inl ⟨ws, rfl, rfl⟩
          | redirect code =>
              refine .inr ⟨_, _, rfl, rfl, ?_⟩
              rwa [isRedirected, Bool.and_true]
          | failed | connectTimedOut | timedOut =>
              refine .inr ⟨_, _, rfl, rfl, ?_⟩
              rwa [isRedirected, Bool.and_false]
    · rintro (⟨ws, rfl, rfl⟩ | ⟨result, rest, rfl, hresult, hrest⟩)
      · apply Runs.call
        exact .pure _
      · apply Runs.call
        cases result with
        | connected ws => cases hresult
        | redirect code => rwa [isRedirected, Bool.and_true] at hrest
        | failed | connectTimedOut | timedOut => rwa [isRedirected, Bool.and_false] at hrest

theorem runs_connectCfRecords_none {trace : Trace (sig Ws Conn)}
    {value : Option Ws × Option String × Bool} (hnext : attempts.nextDomain = (none, next)) :
    Runs (route.connectCfRecords attempts allRedirects) trace value ↔
      trace = [] ∧ value = (none, none, allRedirects) := by
  rw [Route.connectCfRecords]
  split
  next =>
    constructor
    · intro hrun
      cases hrun
      exact ⟨rfl, rfl⟩
    · rintro ⟨rfl, rfl⟩
      exact .pure _
  next hsome => cases hsome.symm.trans hnext

/-- The runs of the loop are the schedules of the domains that are left. -/
theorem runs_connectCfRecords_iff {order : List String} (hpending : attempts.pendingRetry = none)
    (hdc : attempts.dc = route.dc) (horder : upcoming attempts = order)
    {trace : Trace (sig Ws Conn)} {value : Option Ws × Option String × Bool} :
    Runs (route.connectCfRecords attempts allRedirects) trace value ↔
      ∃ dialled, trace = dialled.map (dialEvent route) ∧ Scheduled route.dc order dialled ∧
        value = concluded allRedirects dialled := by
  induction order generalizing attempts allRedirects trace with
  | nil =>
      rcases nextDomain_upcoming hpending with ⟨-, next, hnext⟩ | ⟨domain, rest, next, hcons, -⟩
      · rw [runs_connectCfRecords_none route hnext]
        constructor
        · rintro ⟨rfl, rfl⟩
          exact ⟨[], rfl, .exhausted, by simp [concluded]⟩
        · rintro ⟨dialled, rfl, hscheduled, rfl⟩
          cases hscheduled
          exact ⟨rfl, by simp [concluded]⟩
      · cases horder.symm.trans hcons
  | cons domain order ih =>
      rcases nextDomain_upcoming hpending with
        ⟨hnil, -⟩ | ⟨found, rest, next, hcons, hnext, hretry, hnextDc, hrest⟩
      · cases horder.symm.trans hnil
      · cases horder.symm.trans hcons
        rw [hdc] at hnext hretry hnextDc
        -- The iterator is in the same state after one attempt and after two.
        have hafter (allRedirects : Bool) (trace : Trace (sig Ws Conn)) :=
          @ih next.noteTimedOut allRedirects rfl hnextDc hrest trace
        have hsame (result : WsConnectResult Ws) : (if isTimedOut result = true then
            next.noteTimedOut.noteTimedOut else next.noteTimedOut) = next.noteTimedOut :=
          ite_self _
        have hsecond (allRedirects : Bool) (trace : Trace (sig Ws Conn)) :=
          @runs_connectCfRecords_some _ _ route _ _ allRedirects _ trace value hretry
        rw [runs_connectCfRecords_some route hnext]
        constructor
        · rintro (⟨ws, rfl, rfl⟩ | ⟨result, tail, rfl, hresult, hrun⟩)
          · exact ⟨[_], rfl, .connected ws, rfl⟩
          · cases htimeout : isTimedOut result with
            | true =>
                rw [htimeout, if_pos rfl, hafter] at hrun
                obtain ⟨dialled, rfl, hscheduled, rfl⟩ := hrun
                exact ⟨_ :: dialled, rfl, .timedOut htimeout hscheduled,
                  (concluded_cons hresult _ _).symm⟩
            | false =>
                rw [htimeout, if_neg Bool.false_ne_true, hsecond] at hrun
                rcases hrun with ⟨ws, rfl, rfl⟩ | ⟨retried, rest, rfl, hretried, hrun⟩
                · exact ⟨[_, _], rfl, .retryConnected htimeout hresult ws, rfl⟩
                · rw [hsame, hafter] at hrun
                  obtain ⟨dialled, rfl, hscheduled, rfl⟩ := hrun
                  refine ⟨_ :: _ :: dialled, rfl,
                    .retryFailed htimeout hresult hretried hscheduled, ?_⟩
                  rw [concluded_cons hresult, concluded_cons hretried]
        · rintro ⟨dialled, rfl, hscheduled, rfl⟩
          cases hscheduled with
          | connected ws => exact .inl ⟨ws, rfl, rfl⟩
          | timedOut htimeout hscheduled =>
              have hresult := not_isConnected_of_isTimedOut htimeout
              refine .inr ⟨_, _, rfl, hresult, ?_⟩
              rw [htimeout, if_pos rfl, hafter, concluded_cons hresult]
              exact ⟨_, rfl, hscheduled, rfl⟩
          | retryConnected htimeout hresult ws =>
              refine .inr ⟨_, _, rfl, hresult, ?_⟩
              rw [htimeout, if_neg Bool.false_ne_true, hsecond]
              exact .inl ⟨ws, rfl, rfl⟩
          | retryFailed htimeout hresult hretried hscheduled =>
              refine .inr ⟨_, _, rfl, hresult, ?_⟩
              rw [htimeout, if_neg Bool.false_ne_true, hsecond]
              refine .inr ⟨_, _, rfl, hretried, ?_⟩
              rw [hsame, hafter, concluded_cons hresult, concluded_cons hretried]
              exact ⟨_, rfl, hscheduled, rfl⟩

theorem upcoming_withOffset (dc : Nat) (domains : List String) (first : Nat) :
    upcoming (CfAttempts.withOffset dc domains first) = (domainOrder domains first).eraseDups := by
  have horder : order (CfAttempts.withOffset dc domains first) = domainOrder domains first := by
    unfold order CfAttempts.withOffset domainOrder
    cases domains with
    | nil => rfl
    | cons head rest =>
        simp only [if_neg (List.cons_ne_nil head rest), Nat.mod_add_mod]
  unfold upcoming
  rw [horder]
  exact unseen_nil _

/-- The attempts with the outcomes of a sequence. -/
def schedule (dc : Nat) : List String → (Nat → WsConnectResult Ws) →
    List (String × WsConnectResult Ws)
  | [], _ => []
  | domain :: rest, outcome =>
      if isConnected (outcome 0) then [(kwsRecord dc domain, outcome 0)]
      else if isTimedOut (outcome 0) then
        (kwsRecord dc domain, outcome 0) :: schedule dc rest fun n => outcome (n + 1)
      else if isConnected (outcome 1) then
        [(kwsRecord dc domain, outcome 0), (kwsRecord dc domain, outcome 1)]
      else
        (kwsRecord dc domain, outcome 0) :: (kwsRecord dc domain, outcome 1) ::
          schedule dc rest fun n => outcome (n + 2)

/-- The `n`-th attempt ends with the `n`-th outcome. -/
def Answered (outcome : Nat → WsConnectResult Ws) (attempts : List (String × WsConnectResult Ws)) :
    Prop :=
  ∀ n attempt, attempts[n]? = some attempt → attempt.2 = outcome n

section Outcomes

variable {dc : Nat} {domains : List String} {outcome : Nat → WsConnectResult Ws}
variable {dialled : List (String × WsConnectResult Ws)}

theorem answered_nil : Answered outcome [] := by
  intro n attempt hattempt
  cases hattempt

theorem answered_cons {attempt : String × WsConnectResult Ws} :
    Answered outcome (attempt :: dialled) ↔
      attempt.2 = outcome 0 ∧ Answered (fun n => outcome (n + 1)) dialled := by
  constructor
  · intro hanswered
    exact ⟨hanswered 0 attempt rfl, fun n later hlater => hanswered (n + 1) later hlater⟩
  · rintro ⟨hfirst, hrest⟩ n later hlater
    cases n with
    | zero =>
        cases hlater
        exact hfirst
    | succ n => exact hrest n later hlater

theorem exists_connected {result : WsConnectResult Ws} (hresult : isConnected result = true) :
    ∃ ws, result = .connected ws := by
  cases result with
  | connected ws => exact ⟨ws, rfl⟩
  | redirect | failed | connectTimedOut | timedOut => cases hresult

theorem schedule_scheduled (dc : Nat) (domains : List String)
    (outcome : Nat → WsConnectResult Ws) :
    Scheduled dc domains (schedule dc domains outcome) ∧
      Answered outcome (schedule dc domains outcome) := by
  induction domains generalizing outcome with
  | nil => exact ⟨.exhausted, answered_nil⟩
  | cons domain rest ih =>
      unfold schedule
      split
      next hconnected =>
        obtain ⟨ws, hws⟩ := exists_connected hconnected
        refine ⟨?_, answered_cons.mpr ⟨rfl, answered_nil⟩⟩
        rw [hws]
        exact .connected ws
      next hfailed =>
        split
        next htimeout =>
          obtain ⟨hscheduled, hanswered⟩ := ih fun n => outcome (n + 1)
          exact ⟨.timedOut htimeout hscheduled, answered_cons.mpr ⟨rfl, hanswered⟩⟩
        next htimeout =>
          have hfailed := Bool.eq_false_of_not_eq_true hfailed
          have htimeout := Bool.eq_false_of_not_eq_true htimeout
          split
          next hconnected =>
            obtain ⟨ws, hws⟩ := exists_connected hconnected
            refine ⟨?_, answered_cons.mpr ⟨rfl, answered_cons.mpr ⟨rfl, answered_nil⟩⟩⟩
            rw [hws]
            exact .retryConnected htimeout hfailed ws
          next hretried =>
            have hretried := Bool.eq_false_of_not_eq_true hretried
            obtain ⟨hscheduled, hanswered⟩ := ih fun n => outcome (n + 2)
            exact ⟨.retryFailed htimeout hfailed hretried hscheduled,
              answered_cons.mpr ⟨rfl, answered_cons.mpr ⟨rfl, hanswered⟩⟩⟩

theorem Scheduled.eq_schedule (hscheduled : Scheduled dc domains dialled)
    (hanswered : Answered outcome dialled) : dialled = schedule dc domains outcome := by
  induction hscheduled generalizing outcome with
  | exhausted => rfl
  | connected ws =>
      obtain ⟨hfirst, -⟩ := answered_cons.mp hanswered
      simp only [schedule, ← hfirst, isConnected, if_true]
  | timedOut htimeout hrest ih =>
      obtain ⟨hfirst, hlater⟩ := answered_cons.mp hanswered
      simp only [schedule, ← hfirst, not_isConnected_of_isTimedOut htimeout, htimeout, if_true,
        Bool.false_eq_true, if_false, ← ih hlater]
  | retryConnected htimeout hfailed ws =>
      obtain ⟨hfirst, hlater⟩ := answered_cons.mp hanswered
      obtain ⟨hsecond, -⟩ := answered_cons.mp hlater
      have hconnected : isConnected (.connected ws) = true := rfl
      simp only [schedule, ← hfirst, ← hsecond, htimeout, hfailed, hconnected, if_true,
        Bool.false_eq_true, if_false]
  | retryFailed htimeout hfailed hretried hrest ih =>
      obtain ⟨hfirst, hlater⟩ := answered_cons.mp hanswered
      obtain ⟨hsecond, hlast⟩ := answered_cons.mp hlater
      simp only [schedule, ← hfirst, ← hsecond, htimeout, hfailed, hretried, Bool.false_eq_true,
        if_false, ← ih hlast]

theorem Scheduled.length_le (hscheduled : Scheduled dc domains dialled) :
    dialled.length ≤ 2 * domains.length := by
  induction hscheduled with
  | exhausted => exact Nat.zero_le _
  | connected | retryConnected => simp only [List.length_cons, List.length_nil]; omega
  | timedOut _ _ ih | retryFailed _ _ _ _ ih => simp only [List.length_cons]; omega

end Outcomes

/-- The runs of the walk over the records are the schedules of the distinct domains, in
the order of their first occurrence from the offset on, with the result that goes with
the attempts. Every sequence of outcomes has exactly one schedule, of at most two
attempts for a domain. -/
theorem cf_attempt_schedule (route : Route) (domains : List String) (first : Nat) :
    (∀ (trace : Trace (sig Ws Conn)) (value : Option Ws × Option String × Bool),
      Runs (route.connectCfRecords (CfAttempts.withOffset route.dc domains first) true) trace
          value ↔
        ∃ dialled, trace = dialled.map (dialEvent route) ∧
          Scheduled route.dc (domainOrder domains first).eraseDups dialled ∧
          value = concluded true dialled) ∧
      ∀ outcome : Nat → WsConnectResult Ws, ∃ dialled,
        (Scheduled route.dc (domainOrder domains first).eraseDups dialled ∧
          Answered outcome dialled) ∧
        (∀ other, Scheduled route.dc (domainOrder domains first).eraseDups other →
          Answered outcome other → other = dialled) ∧
        dialled.length ≤ 2 * (domainOrder domains first).eraseDups.length := by
  constructor
  · intro trace value
    exact runs_connectCfRecords_iff route rfl rfl (upcoming_withOffset route.dc domains first)
  · intro outcome
    have hschedule :=
      schedule_scheduled route.dc (domainOrder domains first).eraseDups outcome
    refine ⟨_, hschedule, ?_, hschedule.1.length_le⟩
    intro other hscheduled hanswered
    exact hscheduled.eq_schedule hanswered

end Schedule

end TgWsProxy.Routing
