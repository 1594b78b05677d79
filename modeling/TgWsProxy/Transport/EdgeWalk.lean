import Mathlib.Data.List.Rotate
import Mathlib.Logic.Function.Basic
import TgWsProxy.Transport.Model

/-!
# The walk along the preferred edges

Every run of `connect_cf_with_path` with preferred addresses takes them in turn from
the chosen one on, leaves out those that are cooling unless all are, and ends with the
first success or with what the last failure was. What it does to the cooldown map is
one change for each attempt, at the attempted address.
-/

namespace TgWsProxy.Transport

open Foundation.Effect TgWsProxy.Cloudflare
open Foundation.Effect.Program (Ensures EnsuresAfter)

variable {Ip Ws : Type}

/-! ## The addresses of a walk -/

/-- The addresses that a walk may come to, in turn. -/
def edgeOrder (ips : List Ip) (first : Nat) (cooling : Ip → Bool) : List Ip :=
  if ips.all cooling then (ips.rotate first).take 1
  else (ips.rotate first).filter fun ip => !cooling ip

theorem edgeOrder_ne_nil {ips : List Ip} (hips : ips ≠ []) (first : Nat) (cooling : Ip → Bool) :
    edgeOrder ips first cooling ≠ [] := by
  unfold edgeOrder
  split
  next =>
    intro hnil
    rw [List.take_eq_nil_iff] at hnil
    rcases hnil with hone | hnil
    · cases hone
    · exact hips (List.rotate_eq_nil_iff.mp hnil)
  next hall =>
    obtain ⟨ip, hmem, hfree⟩ : ∃ ip ∈ ips, cooling ip = false := by simpa using hall
    apply List.ne_nil_of_mem
    exact List.mem_filter.mpr ⟨List.mem_rotate.mpr hmem, by rw [hfree, Bool.not_false]⟩

theorem mem_of_mem_edgeOrder {ips : List Ip} {first : Nat} {cooling : Ip → Bool} {ip : Ip}
    (hip : ip ∈ edgeOrder ips first cooling) : ip ∈ ips := by
  unfold edgeOrder at hip
  split at hip
  next => exact List.mem_rotate.mp (List.mem_of_mem_take hip)
  next => exact List.mem_rotate.mp (List.mem_of_mem_filter hip)

/-- Counting offsets from the first index is a rotation of the list. -/
theorem finRange_map_get (ips : List Ip) (first : Nat) :
    ((List.finRange ips.length).map fun offset : Fin ips.length =>
      ips.get ⟨(first + offset) % ips.length, Nat.mod_lt _ offset.pos⟩) = ips.rotate first := by
  apply List.ext_getElem
  · simp
  · intro index hleft hright
    simp [List.getElem_rotate, Nat.add_comm]

theorem cfIpAttempts_ensures (ips : List Ip) (first : Nat) (disableTls : Bool)
    (usesCooldown : Ip → Bool) :
    Ensures (cfIpAttempts ips first disableTls usesCooldown : EdgeM Ip Ws (List Ip))
      fun trace attempts => ∃ entries now,
        trace = [⟨.entries disableTls, entries⟩, ⟨.now, now⟩] ∧
        attempts = edgeOrder ips first (isCooling usesCooldown entries now) := by
  refine .call fun entries => .call fun now => .pure ⟨entries, now, rfl, ?_⟩
  rw [finRange_map_get, edgeOrder]
  split
  next hall => simp only [hall, Bool.true_or, List.filter_true]
  next hall =>
    rw [Bool.not_eq_true] at hall
    simp only [hall, Bool.false_or]
    apply List.take_of_length_le
    exact (List.length_filter_le _ _).trans_eq (List.length_rotate ips first)

theorem cfIpAttempts_mem (ips : List Ip) (first : Nat) (disableTls : Bool)
    (usesCooldown : Ip → Bool) :
    Ensures (cfIpAttempts ips first disableTls usesCooldown : EdgeM Ip Ws (List Ip))
      fun _ attempts => ∀ ip ∈ attempts, ip ∈ ips := by
  refine (cfIpAttempts_ensures ips first disableTls usesCooldown).mono ?_
  rintro trace attempts ⟨entries, now, -, rfl⟩ ip hip
  exact mem_of_mem_edgeOrder hip

theorem cfIpStart_ensures {ips : List Ip} (hips : ips ≠ []) :
    Ensures (cfIpStart ips : EdgeM Ip Ws Nat) fun trace first =>
      first < ips.length ∧ (trace = [] ∧ first = 0 ∨
        ∃ count, trace = [⟨.fetchAdd, count⟩] ∧ first = count % ips.length) := by
  have hpos : 0 < ips.length := List.length_pos_of_ne_nil hips
  unfold cfIpStart
  split
  next => exact .pure ⟨hpos, .inl ⟨rfl, rfl⟩⟩
  next => exact .call fun count => .pure ⟨Nat.mod_lt _ hpos, .inr ⟨count, rfl, rfl⟩⟩

/-! ## The attempts of a walk -/

/-- One attempt: the address, how the dial went, and the clock when a cooldown was set. -/
structure Attempt (Ip Ws : Type) where
  ip : Ip
  result : WsConnectResult Ws
  clock : Nat

def Attempt.Connected (attempt : Attempt Ip Ws) : Prop := ∃ ws, attempt.result = .connected ws

def Attempt.Redirected (attempt : Attempt Ip Ws) : Prop := ∃ code, attempt.result = .redirect code

/-- A walk takes the addresses in their order and stops behind the first success. -/
structure Follows (order : List Ip) (walk : List (Attempt Ip Ws)) : Prop where
  failed_before : ∀ attempt ∈ walk.dropLast, ¬ attempt.Connected
  order_eq : ∃ rest, order = walk.map Attempt.ip ++ rest ∧
    (rest ≠ [] → ∃ attempt, walk.getLast? = some attempt ∧ attempt.Connected)

namespace Follows

variable {order : List Ip} {walk : List (Attempt Ip Ws)} {attempt : Attempt Ip Ws}

theorem nil : Follows [] ([] : List (Attempt Ip Ws)) where
  failed_before _ hmem := (List.not_mem_nil hmem).elim
  order_eq := ⟨[], rfl, fun hrest => (hrest rfl).elim⟩

theorem stop (hconnected : attempt.Connected) (rest : List Ip) :
    Follows (attempt.ip :: rest) [attempt] where
  failed_before _ hmem := (List.not_mem_nil hmem).elim
  order_eq := ⟨rest, rfl, fun _ => ⟨attempt, rfl, hconnected⟩⟩

theorem cons (hattempt : ¬ attempt.Connected) (hwalk : Follows order walk) :
    Follows (attempt.ip :: order) (attempt :: walk) where
  failed_before other hmem := by
    cases walk with
    | nil => cases hmem
    | cons next walk =>
        rcases List.mem_cons.mp hmem with rfl | hmem
        · exact hattempt
        · exact hwalk.failed_before other hmem
  order_eq := by
    obtain ⟨rest, rfl, hrest⟩ := hwalk.order_eq
    refine ⟨rest, rfl, ?_⟩
    intro hne
    obtain ⟨last, hlast, hconnected⟩ := hrest hne
    refine ⟨last, ?_, hconnected⟩
    rw [List.getLast?_cons, hlast, Option.getD_some]

theorem ne_nil (hwalk : Follows order walk) (horder : order ≠ []) : walk ≠ [] := by
  rintro rfl
  obtain ⟨rest, rfl, hrest⟩ := hwalk.order_eq
  obtain ⟨last, hlast, -⟩ := hrest horder
  cases hlast

end Follows

/-! ## The result of a walk -/

def redirectCode? : WsConnectResult Ws → Option Nat
  | .redirect code => some code
  | _ => none

theorem Attempt.redirected_iff {attempt : Attempt Ip Ws} :
    attempt.Redirected ↔ redirectCode? attempt.result ≠ none := by
  unfold Attempt.Redirected
  cases attempt.result <;> simp [redirectCode?]

/-- The two slots of the loop, after the attempts so far. -/
def lastNonRedirect (walk : List (Attempt Ip Ws)) : Option (WsConnectResult Ws) :=
  ((walk.map Attempt.result).filter fun result => redirectCode? result = none).getLast?

def lastRedirect (walk : List (Attempt Ip Ws)) : Option Nat :=
  (walk.filterMap fun attempt => redirectCode? attempt.result).getLast?

section Slots

variable (walk : List (Attempt Ip Ws)) {attempt : Attempt Ip Ws} {code : Nat}

theorem lastNonRedirect_concat (hother : redirectCode? attempt.result = none) :
    lastNonRedirect (walk ++ [attempt]) = some attempt.result := by
  simp [lastNonRedirect, hother]

theorem lastNonRedirect_concat_redirect (hcode : redirectCode? attempt.result = some code) :
    lastNonRedirect (walk ++ [attempt]) = lastNonRedirect walk := by
  simp [lastNonRedirect, hcode]

theorem lastRedirect_concat (hother : redirectCode? attempt.result = none) :
    lastRedirect (walk ++ [attempt]) = lastRedirect walk := by
  simp [lastRedirect, hother]

theorem lastRedirect_concat_redirect (hcode : redirectCode? attempt.result = some code) :
    lastRedirect (walk ++ [attempt]) = some code := by
  simp [lastRedirect, hcode]

theorem lastNonRedirect_cases :
    (lastNonRedirect walk = none ∧ ∀ attempt ∈ walk, attempt.Redirected) ∨
      ∃ before attempt after, walk = before ++ attempt :: after ∧
        lastNonRedirect walk = some attempt.result ∧ ¬ attempt.Redirected ∧
        ∀ other ∈ after, other.Redirected := by
  -- The slot holds the last failure that is no redirect, so the walk grows at its end.
  induction walk using List.reverseRecOn with
  | nil => exact .inl ⟨rfl, fun _ hmem => (List.not_mem_nil hmem).elim⟩
  | append_singleton walk attempt ih =>
      cases hcode : redirectCode? attempt.result with
      | none =>
          refine .inr ⟨walk, attempt, [], rfl, lastNonRedirect_concat walk hcode, ?_, ?_⟩
          · exact fun hredirected => Attempt.redirected_iff.mp hredirected hcode
          · exact fun _ hmem => (List.not_mem_nil hmem).elim
      | some code =>
          have hredirected : attempt.Redirected :=
            Attempt.redirected_iff.mpr (by rw [hcode]; exact Option.some_ne_none code)
          rw [lastNonRedirect_concat_redirect walk hcode]
          rcases ih with ⟨hnone, hall⟩ | ⟨before, failed, after, rfl, hslot, hfailed, hafter⟩
          · exact .inl ⟨hnone, List.forall_mem_append.mpr
              ⟨hall, List.forall_mem_singleton.mpr hredirected⟩⟩
          · refine .inr ⟨before, failed, after ++ [attempt], ?_, hslot, hfailed, ?_⟩
            · rw [List.append_assoc, List.cons_append]
            · exact List.forall_mem_append.mpr
                ⟨hafter, List.forall_mem_singleton.mpr hredirected⟩

theorem exists_lastRedirect {walk : List (Attempt Ip Ws)} (hne : walk ≠ [])
    (hall : ∀ attempt ∈ walk, attempt.Redirected) : ∃ code, lastRedirect walk = some code := by
  obtain ⟨before, attempt, rfl⟩ := (List.eq_nil_or_concat' walk).resolve_left hne
  obtain ⟨code, hresult⟩ := hall attempt (List.mem_append_right before (List.mem_singleton_self _))
  exact ⟨code, lastRedirect_concat_redirect before (by rw [hresult]; rfl)⟩

end Slots

/-- The result of a walk in terms of its attempts. -/
structure Concludes (walk : List (Attempt Ip Ws)) (result : WsConnectResult Ws) : Prop where
  connected_iff : ∀ ws, result = .connected ws ↔ ∃ attempt ∈ walk, attempt.result = .connected ws
  redirect_iff : (∃ code, result = .redirect code) ↔ ∀ attempt ∈ walk, attempt.Redirected
  last_failure : (∀ attempt ∈ walk, ¬ attempt.Connected) →
    (∃ attempt ∈ walk, ¬ attempt.Redirected) →
    ∃ before attempt after, walk = before ++ attempt :: after ∧ result = attempt.result ∧
      ¬ attempt.Redirected ∧ ∀ other ∈ after, other.Redirected

/-- A success ends the walk; without one the slots decide. -/
def Settles (before walk : List (Attempt Ip Ws)) (result : Option (WsConnectResult Ws)) : Prop :=
  (∃ attempt ws, walk.getLast? = some attempt ∧ attempt.result = .connected ws ∧
    result = some (.connected ws)) ∨
  ((∀ attempt ∈ walk, ¬ attempt.Connected) ∧
    result = (lastNonRedirect (before ++ walk) <|>
      (lastRedirect (before ++ walk)).map .redirect))

theorem Settles.cons {before walk : List (Attempt Ip Ws)} {attempt : Attempt Ip Ws}
    {result : Option (WsConnectResult Ws)} (hattempt : ¬ attempt.Connected)
    (hsettles : Settles (before ++ [attempt]) walk result) :
    Settles before (attempt :: walk) result := by
  rcases hsettles with ⟨last, ws, hlast, hresult⟩ | ⟨hfailed, hresult⟩
  · refine .inl ⟨last, ws, ?_, hresult⟩
    rw [List.getLast?_cons, hlast, Option.getD_some]
  · refine .inr ⟨List.forall_mem_cons.mpr ⟨hattempt, hfailed⟩, ?_⟩
    rw [hresult, List.append_assoc]
    rfl

theorem Settles.concludes {order : List Ip} {walk : List (Attempt Ip Ws)}
    {result : Option (WsConnectResult Ws)} (hwalk : Follows order walk) (hne : walk ≠ [])
    (hsettles : Settles [] walk result) : ∃ outcome, result = some outcome ∧
      Concludes walk outcome := by
  rcases hsettles with ⟨last, ws, hlast, hconnected, rfl⟩ | ⟨hfailed, rfl⟩
  · obtain ⟨before, rfl⟩ := List.getLast?_eq_some_iff.mp hlast
    have hmem : last ∈ before ++ [last] := List.mem_append_right before (List.mem_singleton_self _)
    refine ⟨_, rfl, ?_, ⟨?_, ?_⟩, ?_⟩
    · intro other
      constructor
      · intro hother
        exact ⟨last, hmem, hconnected.trans hother⟩
      · rintro ⟨attempt, hattempt, hother⟩
        rcases List.mem_append.mp hattempt with hbefore | hsingle
        · refine (hwalk.failed_before attempt ?_ ⟨other, hother⟩).elim
          rwa [List.dropLast_concat]
        · rw [List.mem_singleton.mp hsingle, hconnected] at hother
          exact hother
    · rintro ⟨code, ⟨⟩⟩
    · intro hall
      obtain ⟨code, hcode⟩ := hall last hmem
      rw [hconnected] at hcode
      cases hcode
    · intro hfailed _
      exact (hfailed last hmem ⟨ws, hconnected⟩).elim
  · rw [List.nil_append]
    rcases lastNonRedirect_cases walk with ⟨hslot, hall⟩ | ⟨before, failed, after, hsplit, hslot,
      hother, hafter⟩
    · obtain ⟨code, hcode⟩ := exists_lastRedirect hne hall
      rw [hslot, hcode]
      refine ⟨.redirect code, rfl, ?_, ⟨fun _ => hall, fun _ => ⟨code, rfl⟩⟩, ?_⟩
      · intro ws
        constructor
        · rintro ⟨⟩
        · rintro ⟨attempt, hattempt, hws⟩
          exact (hfailed attempt hattempt ⟨ws, hws⟩).elim
      · rintro _ ⟨attempt, hattempt, hnot⟩
        exact (hnot (hall attempt hattempt)).elim
    · have hmem : failed ∈ walk := by
        rw [hsplit]
        exact List.mem_append_right before List.mem_cons_self
      rw [hslot]
      refine ⟨failed.result, rfl, ?_, ⟨fun hredirect => (hother hredirect).elim, fun hall =>
        (hother (hall failed hmem)).elim⟩, fun _ _ =>
          ⟨before, failed, after, hsplit, rfl, hother, hafter⟩⟩
      intro ws
      constructor
      · intro hws
        exact (hfailed failed hmem ⟨ws, hws⟩).elim
      · rintro ⟨attempt, hattempt, hws⟩
        exact (hfailed attempt hattempt ⟨ws, hws⟩).elim

section Walk

variable [ToString Ip] (dial : WsDial) (outbound : OutboundConnector) (failCooldown : Nat)

/-- The calls of one attempt. -/
def Attempt.events (attempt : Attempt Ip Ws) : Trace (edgeSig Ip Ws) :=
  ⟨.dial { dial with ip := toString attempt.ip }, attempt.result⟩ ::
    match attempt.result with
    | .connectTimedOut _ =>
        if outbound.connectsDirectly (toString attempt.ip) (wsPort dial.disableTls) then
          [⟨.now, attempt.clock⟩,
            ⟨.insert dial.disableTls attempt.ip (attempt.clock + failCooldown), ()⟩]
        else []
    | _ => [⟨.remove dial.disableTls attempt.ip, ()⟩]

/-- What a walk does about an address whose connect timed out. -/
theorem timedOut_ensures (ip : Ip) (reason : String) :
    Ensures (if outbound.connectsDirectly (toString ip) (wsPort dial.disableTls) then
        setCooldown dial.disableTls ip failCooldown else pure () : EdgeM Ip Ws Unit)
      fun trace _ => ∃ clock,
        (Attempt.mk ip (.connectTimedOut reason) clock).events dial outbound failCooldown =
          ⟨.dial { dial with ip := toString ip }, .connectTimedOut reason⟩ :: trace := by
  split
  next hdirect =>
    refine .call fun clock => .perform fun _ => ⟨clock, ?_⟩
    simp only [Attempt.events, hdirect, if_true]
    rfl
  next hproxied =>
    refine .pure ⟨0, ?_⟩
    simp only [Attempt.events, hproxied]
    rfl

theorem walkEdges_ensures (order : List Ip) (before : List (Attempt Ip Ws)) :
    Ensures (walkEdges dial outbound failCooldown order (lastNonRedirect before)
      (lastRedirect before)) fun trace result => ∃ walk, Follows order walk ∧
        trace = walk.flatMap (Attempt.events dial outbound failCooldown) ∧
        Settles before walk result := by
  induction order generalizing before with
  | nil =>
      refine .pure ⟨[], .nil, rfl, .inr ⟨fun _ hmem => (List.not_mem_nil hmem).elim, ?_⟩⟩
      rw [List.append_nil]
  | cons ip rest ih =>
      have hgo : ∀ attempt : Attempt Ip Ws, attempt.ip = ip → ¬ attempt.Connected →
          EnsuresAfter (attempt.events dial outbound failCooldown)
            (walkEdges dial outbound failCooldown rest (lastNonRedirect (before ++ [attempt]))
              (lastRedirect (before ++ [attempt])))
            fun trace result => ∃ walk, Follows (ip :: rest) walk ∧
              trace = walk.flatMap (Attempt.events dial outbound failCooldown) ∧
              Settles before walk result := by
        rintro attempt rfl hfailed
        refine (ih (before ++ [attempt])).after ?_
        rintro trace result ⟨walk, hwalk, rfl, hsettles⟩
        exact ⟨attempt :: walk, hwalk.cons hfailed, rfl, hsettles.cons hfailed⟩
      refine .call fun result => ?_
      cases result with
      | connected ws =>
          refine .call fun _ => .pure ⟨[⟨ip, .connected ws, 0⟩], ?_, rfl, ?_⟩
          · exact @Follows.stop Ip Ws ⟨ip, .connected ws, 0⟩ ⟨ws, rfl⟩ rest
          · exact .inl ⟨_, ws, rfl, rfl, rfl⟩
      | redirect code =>
          have hrest := hgo ⟨ip, .redirect code, 0⟩ rfl (by rintro ⟨_, ⟨⟩⟩)
          rw [lastNonRedirect_concat_redirect _ rfl, lastRedirect_concat_redirect _ rfl] at hrest
          exact .call fun _ => hrest
      | failed reason =>
          have hrest := hgo ⟨ip, .failed reason, 0⟩ rfl (by rintro ⟨_, ⟨⟩⟩)
          rw [lastNonRedirect_concat _ rfl, lastRedirect_concat _ rfl] at hrest
          exact .call fun _ => hrest
      | timedOut =>
          have hrest := hgo ⟨ip, .timedOut, 0⟩ rfl (by rintro ⟨_, ⟨⟩⟩)
          rw [lastNonRedirect_concat _ rfl, lastRedirect_concat _ rfl] at hrest
          exact .call fun _ => hrest
      | connectTimedOut reason =>
          refine .bind (timedOut_ensures dial outbound failCooldown ip reason) ?_
          rintro trace _ ⟨clock, htrace⟩
          have hrest := hgo ⟨ip, .connectTimedOut reason, clock⟩ rfl (by rintro ⟨_, ⟨⟩⟩)
          rw [lastNonRedirect_concat _ rfl, lastRedirect_concat _ rfl, htrace] at hrest
          exact hrest

/-! ## The cooldown map -/

variable [DecidableEq Ip]

/-- What a call does to the cooldown map for `disableTls`. -/
def applyEvent (disableTls : Bool) (map : Ip → Option Nat) (event : Event (edgeSig Ip Ws)) :
    Ip → Option Nat :=
  match event.op with
  | .insert tls ip deadline =>
      if tls = disableTls then Function.update map ip (some deadline) else map
  | .remove tls ip => if tls = disableTls then Function.update map ip none else map
  | .fetchAdd | .entries _ | .now | .dial _ => map

def mapAfter (disableTls : Bool) (map : Ip → Option Nat) (trace : Trace (edgeSig Ip Ws)) :
    Ip → Option Nat :=
  trace.foldl (applyEvent disableTls) map

omit [ToString Ip] in
theorem mapAfter_append (disableTls : Bool) (map : Ip → Option Nat)
    (first second : Trace (edgeSig Ip Ws)) :
    mapAfter disableTls map (first ++ second) =
      mapAfter disableTls (mapAfter disableTls map first) second := List.foldl_append

/-- What an attempt changes: an address that answered is cleared, one that did not is
set if it was dialled directly. -/
def Attempt.note (map : Ip → Option Nat) (attempt : Attempt Ip Ws) : Ip → Option Nat :=
  match attempt.result with
  | .connectTimedOut _ =>
      if outbound.connectsDirectly (toString attempt.ip) (wsPort dial.disableTls) then
        Function.update map attempt.ip (some (attempt.clock + failCooldown))
      else map
  | _ => Function.update map attempt.ip none

theorem mapAfter_events (map : Ip → Option Nat) (attempt : Attempt Ip Ws) :
    mapAfter dial.disableTls map (attempt.events dial outbound failCooldown) =
      attempt.note dial outbound failCooldown map := by
  unfold mapAfter Attempt.events Attempt.note
  cases attempt.result with
  | connectTimedOut reason =>
      simp only
      split
      next => simp [applyEvent]
      next => rfl
  | connected | redirect | failed | timedOut => simp [applyEvent]

theorem mapAfter_events_other (map : Ip → Option Nat) (attempt : Attempt Ip Ws) :
    mapAfter (!dial.disableTls) map (attempt.events dial outbound failCooldown) = map := by
  unfold mapAfter Attempt.events
  cases attempt.result with
  | connectTimedOut reason =>
      simp only
      split
      next => simp [applyEvent]
      next => rfl
  | connected | redirect | failed | timedOut => simp [applyEvent]

theorem mapAfter_walk (map : Ip → Option Nat) (walk : List (Attempt Ip Ws)) :
    mapAfter dial.disableTls map (walk.flatMap (Attempt.events dial outbound failCooldown)) =
      walk.foldl (Attempt.note dial outbound failCooldown) map := by
  induction walk generalizing map with
  | nil => rfl
  | cons attempt walk ih => rw [List.flatMap_cons, mapAfter_append, mapAfter_events, ih,
      List.foldl_cons]

theorem mapAfter_walk_other (map : Ip → Option Nat) (walk : List (Attempt Ip Ws)) :
    mapAfter (!dial.disableTls) map (walk.flatMap (Attempt.events dial outbound failCooldown)) =
      map := by
  induction walk with
  | nil => rfl
  | cons attempt walk ih => rw [List.flatMap_cons, mapAfter_append, mapAfter_events_other, ih]

theorem Attempt.note_of_ne {attempt : Attempt Ip Ws} {ip : Ip} (hip : ip ≠ attempt.ip)
    (map : Ip → Option Nat) : attempt.note dial outbound failCooldown map ip = map ip := by
  unfold Attempt.note
  cases attempt.result with
  | connectTimedOut reason =>
      simp only
      split
      next => exact Function.update_of_ne hip _ _
      next => rfl
  | connected | redirect | failed | timedOut => exact Function.update_of_ne hip _ _

theorem foldl_note_of_not_mem {walk : List (Attempt Ip Ws)} {ip : Ip}
    (hip : ip ∉ walk.map Attempt.ip) (map : Ip → Option Nat) :
    walk.foldl (Attempt.note dial outbound failCooldown) map ip = map ip := by
  induction walk generalizing map with
  | nil => rfl
  | cons attempt walk ih =>
      rw [List.map_cons, List.mem_cons, not_or] at hip
      rw [List.foldl_cons, ih hip.2, Attempt.note_of_ne dial outbound failCooldown hip.1]

end Walk

section Edges

variable [ToString Ip] [DecidableEq Ip]

omit [DecidableEq Ip] in
/-- The calls of a run with preferred addresses. -/
theorem connectCfWithPath_ensures (domain path : String)
    (requestBinarySubprotocol skipTlsVerify : Bool) (timeout : Nat) (outbound : OutboundConnector)
    (opts : CfDialOpts Ip) (hips : opts.cfIps ≠ []) :
    Ensures (connectCfWithPath domain path requestBinarySubprotocol skipTlsVerify timeout outbound
        opts : EdgeM Ip Ws (Option (WsConnectResult Ws))) fun trace result =>
      ∃ (turn : Trace (edgeSig Ip Ws)) (first : Nat) (entries : Ip → Option Nat) (now : Nat)
        (walk : List (Attempt Ip Ws)),
        first < opts.cfIps.length ∧
        (turn = [] ∧ first = 0 ∨
          ∃ count, turn = [⟨.fetchAdd, count⟩] ∧ first = count % opts.cfIps.length) ∧
        trace = turn ++ [⟨.entries opts.disableTls, entries⟩, ⟨.now, now⟩] ++
          walk.flatMap (Attempt.events (cfDial domain path requestBinarySubprotocol skipTlsVerify
            timeout opts.disableTls) outbound opts.failCooldown) ∧
        Follows (edgeOrder opts.cfIps first (isCooling (fun ip =>
          outbound.connectsDirectly (toString ip) (wsPort opts.disableTls)) entries now)) walk ∧
        Settles [] walk result := by
  unfold connectCfWithPath
  simp only [hips, if_false]
  refine .bind (cfIpStart_ensures hips) ?_
  rintro turn first ⟨hfirst, hturn⟩
  refine .bind (cfIpAttempts_ensures opts.cfIps first opts.disableTls _) ?_
  rintro _ order ⟨entries, now, rfl, rfl⟩
  refine (walkEdges_ensures _ outbound opts.failCooldown _ []).after ?_
  rintro _ result ⟨walk, hwalk, rfl, hsettles⟩
  exact ⟨turn, first, entries, now, walk, hfirst, hturn, rfl, hwalk, hsettles⟩

omit [ToString Ip] in
/-- What is read before the first attempt changes nothing. -/
theorem mapAfter_readings {turn : Trace (edgeSig Ip Ws)}
    (hturn : turn = [] ∨ ∃ count, turn = [⟨.fetchAdd, count⟩]) (disableTls tls : Bool)
    (entries : Ip → Option Nat) (now : Nat) (map : Ip → Option Nat) :
    mapAfter tls map (turn ++ [⟨.entries disableTls, entries⟩, ⟨.now, now⟩]) = map := by
  rcases hturn with rfl | ⟨count, rfl⟩ <;> rfl

/-- Every run with preferred addresses: the addresses it attempts, what it returns, and
what becomes of the cooldown maps. -/
theorem connect_cf_with_path_walks (domain path : String)
    (requestBinarySubprotocol skipTlsVerify : Bool) (timeout : Nat) (outbound : OutboundConnector)
    (opts : CfDialOpts Ip) (hips : opts.cfIps ≠ []) :
    Ensures (connectCfWithPath domain path requestBinarySubprotocol skipTlsVerify timeout outbound
        opts : EdgeM Ip Ws (Option (WsConnectResult Ws))) fun trace result =>
      ∃ (turn : Trace (edgeSig Ip Ws)) (first : Nat) (entries : Ip → Option Nat) (now : Nat)
        (walk : List (Attempt Ip Ws)) (outcome : WsConnectResult Ws),
        first < opts.cfIps.length ∧
        (turn = [] ∧ first = 0 ∨
          ∃ count, turn = [⟨.fetchAdd, count⟩] ∧ first = count % opts.cfIps.length) ∧
        trace = turn ++ [⟨.entries opts.disableTls, entries⟩, ⟨.now, now⟩] ++
          walk.flatMap (Attempt.events (cfDial domain path requestBinarySubprotocol skipTlsVerify
            timeout opts.disableTls) outbound opts.failCooldown) ∧
        Follows (edgeOrder opts.cfIps first (isCooling (fun ip =>
          outbound.connectsDirectly (toString ip) (wsPort opts.disableTls)) entries now)) walk ∧
        result = some outcome ∧ Concludes walk outcome ∧
        ∀ map : Ip → Option Nat,
          mapAfter opts.disableTls map trace = walk.foldl (Attempt.note (cfDial domain path
            requestBinarySubprotocol skipTlsVerify timeout opts.disableTls) outbound
              opts.failCooldown) map ∧
          mapAfter (!opts.disableTls) map trace = map ∧
          ∀ ip ∉ walk.map Attempt.ip, mapAfter opts.disableTls map trace ip = map ip := by
  refine (connectCfWithPath_ensures domain path requestBinarySubprotocol skipTlsVerify timeout
    outbound opts hips).mono ?_
  rintro _ result ⟨turn, first, entries, now, walk, hfirst, hturn, rfl, hwalk, hsettles⟩
  obtain ⟨outcome, hresult, hconcludes⟩ :=
    hsettles.concludes hwalk (hwalk.ne_nil (edgeOrder_ne_nil hips first _))
  refine ⟨turn, first, entries, now, walk, outcome, hfirst, hturn, rfl, hwalk, hresult, hconcludes,
    ?_⟩
  intro map
  have hread : turn = [] ∨ ∃ count, turn = [⟨.fetchAdd, count⟩] :=
    hturn.imp And.left (Exists.imp fun _ => And.left)
  have hmap := mapAfter_walk (cfDial domain path requestBinarySubprotocol skipTlsVerify timeout
    opts.disableTls) outbound opts.failCooldown map walk
  rw [mapAfter_append, mapAfter_readings hread, mapAfter_append, mapAfter_readings hread]
  refine ⟨hmap, ?_, ?_⟩
  · exact mapAfter_walk_other (cfDial domain path requestBinarySubprotocol skipTlsVerify timeout
      opts.disableTls) outbound opts.failCooldown map walk
  intro ip hip
  exact (congrFun hmap ip).trans (foldl_note_of_not_mem _ outbound opts.failCooldown hip map)

theorem connect_cf_with_path_walks_two_edges :
    Ensures (connectCfWithPath "kws2.example.com" "/apiws" true false 10 ⟨false, fun _ _ => false⟩
        ⟨[1, 2], false, 60⟩ : EdgeM Nat Unit (Option (WsConnectResult Unit))) fun trace result =>
      result ≠ none ∧ mapAfter true (fun _ : Nat => some 7) trace = fun _ => some 7 := by
  refine (connect_cf_with_path_walks "kws2.example.com" "/apiws" true false 10
    ⟨false, fun _ _ => false⟩ ⟨[1, 2], false, 60⟩ (by decide)).mono ?_
  rintro trace result ⟨turn, first, entries, now, walk, outcome, -, -, -, -, rfl, -, hmap⟩
  exact ⟨Option.some_ne_none outcome, (hmap fun _ => some 7).2.1⟩

end Edges

end TgWsProxy.Transport
