import Mathlib.Data.List.DropRight
import TgWsProxy.Foundation.Concurrent
import TgWsProxy.Routing.Rungs
import TgWsProxy.Routing.Traversal

/-!
# Who blacklists an address

Any number of clients route at the same time over the shared cooldown maps. An
address enters `IP_FAIL` after a direct attempt in which a TCP connect timed out;
whether that attempt was a probe is read from `WS_FAIL` twice, once for the
decision and once for the timeout, and another client can come in between.
-/

namespace TgWsProxy.Routing

open Foundation.Effect Foundation.Concurrent TgWsProxy.Cloudflare TgWsProxy.Pool TgWsProxy.Crypto
open Foundation.Effect.Program (Ensures)

variable {Ws Conn : Type}

/-! ## The shared maps -/

/-- The cooldown maps and the clock: until when each key is in its cooldown. -/
structure Cooldowns where
  now : Nat
  deadline : CooldownKey → Option Nat

namespace Cooldowns

def active (maps : Cooldowns) (key : CooldownKey) : Bool :=
  match maps.deadline key with
  | some deadline => decide (maps.now < deadline)
  | none => false

def store (maps : Cooldowns) (key : CooldownKey) (deadline : Option Nat) : Cooldowns :=
  { maps with deadline := fun other => if other = key then deadline else maps.deadline other }

/-- The maps answer their own operations; the pool, the rotation counters and the
network may answer anything. -/
def answer (maps : Cooldowns) : (op : Op) → Reply Ws Conn op → Reply Ws Conn op × Cooldowns
  | .active key, _ => (maps.active key, maps)
  | .set key cooldown, _ => ((), maps.store key (some (maps.now + cooldown)))
  | .clear key, _ => ((), maps.store key none)
  | .fetchAdd _, outside => (outside, maps)
  | .poolGet _ _ _ _ _, outside => (outside, maps)
  | .cfGet _ _ _, outside => (outside, maps)
  | .cfPrefetch _, outside => (outside, maps)
  | .connectWs _ _ _ _ _, outside => (outside, maps)
  | .connectCf _ _ _ _ _ _ _, outside => (outside, maps)
  | .connectMtproto _ _ _ _, outside => (outside, maps)

end Cooldowns

/-- What routing knows of a client. -/
structure Client where
  dc : Nat
  isMedia : Bool
  dcIdx : Int16
  proto : ProtoTag

def Client.route (client : Client) (config : Config) : Route where
  config := config
  dc := client.dc
  isMedia := client.isMedia
  dcIdx := client.dcIdx
  proto := client.proto

/-- The clients of one process. -/
def clients (Ws Conn : Type) (config : Config) :
    World (sig Ws Conn) Cooldowns Client (Option (Upstream Ws Conn)) where
  start := ⟨0, fun _ => none⟩
  program client := (client.route config).selectUpstream (config.dcTargetIp client.dc)
  answer maps op outside := maps.answer op outside
  elapse maps time := { maps with now := maps.now + time }

/-! ## Attempts -/

/-- The timeout of a direct dial. -/
def Op.wsTimeout? : Op → Option Nat
  | .connectWs _ _ _ timeout _ => some timeout
  | _ => none

/-- A TCP connect to the address timed out. -/
def TcpTimedOut (targetIp : String) : Event (sig Ws Conn) → Prop
  | ⟨.connectWs ip _ _ _ _, result⟩ =>
      ip = targetIp ∧ ∃ reason, result = WsConnectResult.connectTimedOut reason
  | _ => False

def Op.reads : Op → Bool
  | .active _ => true
  | _ => false

/-- The attempt that a client is making: its calls since it last read a cooldown. -/
def attempt (done : Trace (sig Ws Conn)) : Trace (sig Ws Conn) :=
  done.rtakeWhile fun event => !event.op.reads

/-- Every direct dial of the attempt had the full timeout, and a TCP connect to the
address timed out. -/
def FullBudget (config : Config) (targetIp : String) (attempt : Trace (sig Ws Conn)) : Prop :=
  (∀ event ∈ attempt, ∀ timeout, event.op.wsTimeout? = some timeout →
    timeout = config.wsConnectTimeout) ∧
  ∃ event ∈ attempt, TcpTimedOut targetIp event

/-- Whenever the client put an address into `IP_FAIL`, its attempt had the full
budget. -/
def BlamesInFull (config : Config) (done : Trace (sig Ws Conn)) : Prop :=
  ∀ before targetIp cooldown after,
    done = before ++ ⟨.set (.ip targetIp) cooldown, ()⟩ :: after →
    FullBudget config targetIp (attempt before)

/-! ## What one client does -/

/-- The calls right before an address enters `IP_FAIL`: the read that found no
window, the read that chose the timeout, the dials, and the new window. -/
def Blames (config : Config) (targetIp : String) (before : Trace (sig Ws Conn)) : Prop :=
  ∃ earlier dc isMedia cooling dials cooldown,
    before = earlier ++ ⟨.active (.ws dc isMedia), false⟩ ::
      ⟨.active (.ws dc isMedia), cooling⟩ ::
        (dials ++ [⟨.set (.ws dc isMedia) cooldown, ()⟩]) ∧
    (∀ event ∈ dials, event.op.wsTimeout? =
      some (if cooling then config.wsFailProbeTimeout else config.wsConnectTimeout)) ∧
    ∃ event ∈ dials, TcpTimedOut targetIp event

theorem Blames.prepend {config : Config} {targetIp : String} {before : Trace (sig Ws Conn)}
    (hblames : Blames config targetIp before) (first : Trace (sig Ws Conn)) :
    Blames config targetIp (first ++ before) := by
  obtain ⟨earlier, dc, isMedia, cooling, dials, cooldown, rfl, hdials, htimedOut⟩ := hblames
  exact ⟨first ++ earlier, dc, isMedia, cooling, dials, cooldown, by simp, hdials, htimedOut⟩

def Blamed (config : Config) (trace : Trace (sig Ws Conn)) : Prop :=
  ∀ before targetIp cooldown after,
    trace = before ++ ⟨.set (.ip targetIp) cooldown, ()⟩ :: after →
    Blames config targetIp before

/-- No address is put into `IP_FAIL`. -/
def Op.Spares : Op → Prop
  | .set (.ip _) _ => False
  | _ => True

theorem spares_of_wsTimeout {op : Op} {timeout : Nat} (htimeout : op.wsTimeout? = some timeout) :
    op.Spares := by
  cases op with
  | connectWs _ _ _ _ _ => trivial
  | _ => cases htimeout

theorem spares_of_routine {op : Op} {route : Route} {targetIp : Option String}
    (hroutine : op.Routine route targetIp) : op.Spares := by
  cases op with
  | set key cooldown =>
      cases key with
      | ip other => exact hroutine.elim
      | _ => trivial
  | _ => trivial

namespace Blamed

variable {config : Config} {trace : Trace (sig Ws Conn)}

theorem of_spares (hspares : ∀ event ∈ trace, event.op.Spares) : Blamed config trace := by
  rintro before targetIp cooldown after rfl
  exact (hspares ⟨.set (.ip targetIp) cooldown, ()⟩ (by simp)).elim

theorem additive : Additive (Blamed config : Trace (sig Ws Conn) → Prop) where
  nil := of_spares fun _ hmem => (List.not_mem_nil hmem).elim
  append := by
    intro first second hfirst hsecond before targetIp cooldown after heq
    rcases List.append_eq_append_iff.mp heq with ⟨inner, rfl, hrest⟩ | ⟨inner, hrest, heq⟩
    · exact (hsecond inner targetIp cooldown after hrest).prepend first
    · cases inner with
      | nil =>
          rw [List.append_nil] at hrest
          have hblames := hsecond [] targetIp cooldown after heq.symm
          rw [← hrest]
          simpa using hblames.prepend first
      | cons head tail =>
          obtain ⟨rfl, -⟩ := List.cons.inj heq
          exact hfirst before targetIp cooldown tail hrest

/-- The address enters `IP_FAIL` at the end of the trace. -/
theorem snoc {targetIp : String} {cooldown : Nat} (hspares : ∀ event ∈ trace, event.op.Spares)
    (hblames : Blames config targetIp trace) :
    Blamed config (trace ++ [⟨.set (.ip targetIp) cooldown, ()⟩]) := by
  intro before other later after heq
  rcases List.append_eq_append_iff.mp heq with ⟨inner, rfl, hrest⟩ | ⟨inner, hrest, heq⟩
  · cases inner with
    | nil =>
        cases hrest
        simpa using hblames
    | cons head tail => simp at hrest
  · cases inner with
    | nil =>
        cases heq
        rw [List.append_nil] at hrest
        exact hrest ▸ hblames
    | cons head tail =>
        obtain ⟨rfl, -⟩ := List.cons.inj heq
        exact (hspares ⟨.set (.ip other) later, ()⟩ (by simp [hrest])).elim

theorem request {op : Op} (hspares : op.Spares) :
    Ensures (request op : M Ws Conn _) fun trace _ => Blamed config trace :=
  .perform fun _ => of_spares fun event hmem => by
    rw [List.mem_singleton.mp hmem]
    exact hspares

theorem clear (key : CooldownKey) :
    Ensures (clear key : M Ws Conn Unit) fun trace _ => Blamed config trace := request trivial

end Blamed

/-- The dials of an attempt: all of them with its timeout, and what its verdict
about the address rests on beyond the flags it started with. -/
structure Dials (ip : String) (timeout : Nat) (flags : WsAttempt Ws)
    (trace : Trace (sig Ws Conn)) (outcome : WsAttempt Ws) : Prop where
  timeouts : ∀ event ∈ trace, event.op.wsTimeout? = some timeout
  verdict : outcome.connectTimedOut = true →
    flags.connectTimedOut = true ∨ ∃ event ∈ trace, TcpTimedOut ip event

theorem Dials.cons {ip domain : String} {skipTlsVerify : Bool} {timeout : Nat}
    {sniOverride : Option String} {result : WsConnectResult Ws} {flags later outcome : WsAttempt Ws}
    {trace : Trace (sig Ws Conn)} (hdials : Dials ip timeout later trace outcome)
    (hlater : later.connectTimedOut = true → flags.connectTimedOut = true ∨
      ∃ reason, result = .connectTimedOut reason) :
    Dials ip timeout flags
      ([⟨.connectWs ip domain skipTlsVerify timeout sniOverride, result⟩] ++ trace) outcome where
  timeouts := List.forall_mem_cons.mpr ⟨rfl, hdials.timeouts⟩
  verdict htimedOut := by
    rcases hdials.verdict htimedOut with hflag | ⟨event, hmem, hevent⟩
    · rcases hlater hflag with hflag | ⟨reason, hreason⟩
      · exact .inl hflag
      · exact .inr ⟨_, List.mem_cons_self, rfl, reason, hreason⟩
    · exact .inr ⟨event, List.mem_cons_of_mem _ hmem, hevent⟩

theorem connectWsDomains_dials (ip : String) (skipTlsVerify : Bool) (timeout : Nat)
    (sniOverride : Option String) (domains : List String) (flags : WsAttempt Ws) :
    Ensures (connectWsDomains ip skipTlsVerify timeout sniOverride domains flags :
      M Ws Conn (WsAttempt Ws)) (Dials ip timeout flags) := by
  induction domains generalizing flags with
  | nil => exact .pure ⟨fun _ hmem => (List.not_mem_nil hmem).elim, .inl⟩
  | cons domain rest ih =>
      refine .bind (request_ensures _) ?_
      rintro _ result rfl
      cases result with
      | connected ws => exact .pure ⟨List.forall_mem_cons.mpr ⟨rfl, nofun⟩, nofun⟩
      | redirect code => exact (ih _).after fun _ _ hdials => hdials.cons .inl
      | failed reason => exact (ih _).after fun _ _ hdials => hdials.cons .inl
      | timedOut => exact (ih _).after fun _ _ hdials => hdials.cons .inl
      | connectTimedOut reason =>
          exact (ih _).after fun _ _ hdials => hdials.cons fun _ => .inr ⟨reason, rfl⟩

namespace Blamed

variable (route : Route)

theorem directWs (targetIp : String) :
    Ensures (route.directWs targetIp : M Ws Conn (Option Ws)) fun trace _ =>
      Blamed route.config trace := by
  refine .bind (active_ensures (.ws route.dc route.isMedia)) ?_
  rintro _ probing rfl
  have hattempt : Ensures (route.connectWs targetIp route.config.frontingDomain :
      M Ws Conn (WsAttempt Ws)) fun trace outcome => ∃ cooling dials,
        trace = ⟨.active (.ws route.dc route.isMedia), cooling⟩ :: dials ∧
        (∀ event ∈ dials, event.op.wsTimeout? = some (if cooling then
          route.config.wsFailProbeTimeout else route.config.wsConnectTimeout)) ∧
        (outcome.connectTimedOut = true → ∃ event ∈ dials, TcpTimedOut targetIp event) := by
    refine .bind (active_ensures (.ws route.dc route.isMedia)) ?_
    rintro _ cooling rfl
    refine Ensures.after (connectWsDomains_dials _ _ _ _ _ _) ?_
    intro dials outcome hdials
    refine ⟨cooling, dials, rfl, hdials.timeouts, ?_⟩
    intro htimedOut
    exact (hdials.verdict htimedOut).resolve_left nofun
  refine .bind hattempt ?_
  rintro _ outcome ⟨cooling, dials, rfl, hdials, hverdict⟩
  let calls : Trace (sig Ws Conn) := [⟨.active (.ws route.dc route.isMedia), probing⟩] ++
    ⟨.active (.ws route.dc route.isMedia), cooling⟩ :: dials
  have hspares : ∀ event ∈ calls, event.op.Spares := by
    refine List.forall_mem_cons.mpr ⟨trivial, List.forall_mem_cons.mpr ⟨trivial, ?_⟩⟩
    intro event hmem
    exact spares_of_wsTimeout (hdials event hmem)
  have hcalls : Blamed route.config calls := of_spares hspares
  cases outcome.ws with
  | some ws =>
      have hforgiven : Ensures (do
          Routing.clear (.ws route.dc route.isMedia)
          Routing.clear (.ip targetIp)
          pure (some ws) : M Ws Conn (Option Ws)) fun trace _ => Blamed route.config trace :=
        additive.bind (clear _) fun _ => additive.bind (clear _) fun _ => additive.pure _
      exact hforgiven.after fun _ _ hcleared => additive.append hcalls hcleared
  | none =>
      refine .bind (request_ensures (.set (.ws route.dc route.isMedia) _)) ?_
      rintro _ _ rfl
      have hnoted : ∀ cooldown, ∀ event ∈
          calls ++ [⟨.set (.ws route.dc route.isMedia) cooldown, ()⟩], event.op.Spares := by
        intro cooldown
        refine List.forall_mem_append.mpr ⟨hspares, ?_⟩
        exact List.forall_mem_cons.mpr ⟨trivial, nofun⟩
      by_cases hblamed : (outcome.connectTimedOut && !probing) = true
      · rw [if_pos hblamed]
        obtain ⟨htimedOut, hprobing⟩ := Bool.and_eq_true_iff.mp hblamed
        have hblames : ∀ cooldown, Blames route.config targetIp
            (calls ++ [⟨.set (.ws route.dc route.isMedia) cooldown, ()⟩]) := by
          intro cooldown
          refine ⟨[], route.dc, route.isMedia, cooling, dials, cooldown, ?_, hdials,
            hverdict htimedOut⟩
          simp [calls, (Bool.not_eq_true' probing).mp hprobing]
        refine .bind (request_ensures (.set (.ip targetIp) route.config.ipFailCooldown)) ?_
        rintro _ _ rfl
        exact .pure (snoc (hnoted _) (hblames _))
      · rw [if_neg hblamed]
        exact .pure (of_spares (hnoted _))

theorem traverses (targetIp : Option String) :
    Traverses route targetIp fun _ (program : M Ws Conn _) =>
      Ensures program fun trace _ => Blamed route.config trace where
  toSequential := additive.sequential
  routine _ hroutine := request (spares_of_routine hroutine)
  direct ip _ := directWs route ip

theorem selectUpstream (targetIp : Option String) :
    Ensures (route.selectUpstream targetIp : M Ws Conn (Option (Upstream Ws Conn)))
      fun trace _ => Blamed route.config trace :=
  (traverses route targetIp).selectUpstream

end Blamed

/-! ## Runs of all clients -/

/-- An answer for every operation. -/
def silence : (op : Op) → Reply Ws Conn op
  | .active _ => false
  | .set _ _ | .clear _ | .cfPrefetch _ => ()
  | .fetchAdd _ => (0 : Nat)
  | .poolGet _ _ _ _ _ | .cfGet _ _ _ | .connectMtproto _ _ _ _ => none
  | .connectWs _ _ _ _ _ | .connectCf _ _ _ _ _ _ _ => WsConnectResult.connectTimedOut ""

/-- No window was found closed by the first read of an attempt and open by the
second. -/
def Steady (done : Trace (sig Ws Conn)) : Prop :=
  ∀ before dc isMedia after, done ≠ before ++ ⟨.active (.ws dc isMedia), false⟩ ::
    ⟨.active (.ws dc isMedia), true⟩ :: after

/-- When an attempt whose first read found no window makes its second read, there
still is none. -/
def WindowKept (state : Crowd (sig Ws Conn) Cooldowns Client (Option (Upstream Ws Conn))) :
    Label (sig Ws Conn) Client → Prop
  | .call index _ => ∀ thread, state.threads[index]? = some thread → ∀ dc isMedia rest,
      thread.done.getLast? = some ⟨.active (.ws dc isMedia), false⟩ →
      thread.rest = .call (.active (.ws dc isMedia)) rest →
      state.shared.active (.ws dc isMedia) = false
  | .arrive _ | .elapse _ => True

theorem attempt_eq {earlier rest : Trace (sig Ws Conn)} {event : Event (sig Ws Conn)}
    (hread : event.op.reads = true) (hrest : ∀ later ∈ rest, later.op.reads = false) :
    attempt (earlier ++ event :: rest) = rest := by
  have hreverse : (earlier ++ event :: rest).reverse =
      rest.reverse ++ event :: earlier.reverse := by simp
  unfold attempt List.rtakeWhile
  rw [hreverse, List.takeWhile_append_of_pos]
  · simp [hread]
  · intro later hlater
    simp [hrest later (List.mem_reverse.mp hlater)]

theorem reads_of_wsTimeout {op : Op} {timeout : Nat} (htimeout : op.wsTimeout? = some timeout) :
    op.reads = false := by
  cases op with
  | active _ => cases htimeout
  | _ => rfl

theorem Steady.blamesInFull {config : Config} {done tail : Trace (sig Ws Conn)}
    (hsteady : Steady done) (hblamed : Blamed config (done ++ tail)) :
    BlamesInFull config done := by
  rintro before targetIp cooldown after rfl
  obtain ⟨earlier, dc, isMedia, cooling, dials, window, rfl, hdials, event, hmem, htimedOut⟩ :=
    hblamed before targetIp cooldown (after ++ tail) (by simp)
  cases cooling with
  | true => exact (hsteady earlier dc isMedia _ (by simp; rfl)).elim
  | false =>
      have hattempt : attempt (earlier ++ ⟨.active (.ws dc isMedia), false⟩ ::
          ⟨.active (.ws dc isMedia), false⟩ ::
            (dials ++ [⟨.set (.ws dc isMedia) window, ()⟩])) =
          dials ++ [⟨.set (.ws dc isMedia) window, ()⟩] := by
        rw [List.append_cons]
        refine attempt_eq rfl (List.forall_mem_append.mpr ⟨?_, ?_⟩)
        · exact fun event hmem => reads_of_wsTimeout (hdials event hmem)
        · exact List.forall_mem_cons.mpr ⟨rfl, nofun⟩
      rw [hattempt]
      refine ⟨List.forall_mem_append.mpr ⟨?_, ?_⟩, event, List.mem_append_left _ hmem, htimedOut⟩
      · intro event hmem timeout htimeout
        rw [hdials event hmem] at htimeout
        exact (Option.some.inj htimeout).symm
      · exact List.forall_mem_cons.mpr ⟨nofun, nofun⟩

theorem Steady.snoc {done : Trace (sig Ws Conn)} {event : Event (sig Ws Conn)}
    (hsteady : Steady done)
    (hevent : ∀ dc isMedia, done.getLast? = some ⟨.active (.ws dc isMedia), false⟩ →
      event ≠ ⟨.active (.ws dc isMedia), true⟩) : Steady (done ++ [event]) := by
  intro before dc isMedia after heq
  cases after using List.reverseRecOn with
  | nil =>
      have hsplit : done ++ [event] = (before ++ [⟨.active (.ws dc isMedia), false⟩]) ++
          [⟨.active (.ws dc isMedia), true⟩] := by simpa using heq
      obtain ⟨hdone, hlast⟩ := List.append_inj' hsplit rfl
      refine hevent dc isMedia ?_ (List.singleton_inj.mp hlast)
      rw [hdone, List.getLast?_concat]
  | append_singleton after last =>
      have hsplit : done ++ [event] = (before ++ ⟨.active (.ws dc isMedia), false⟩ ::
          ⟨.active (.ws dc isMedia), true⟩ :: after) ++ [last] := by simpa using heq
      exact hsteady before dc isMedia after (List.append_inj' hsplit rfl).1

theorem steady_of_windowKept {config : Config} {labels : List (Label (sig Ws Conn) Client)}
    (hkept : ∀ state label, (clients Ws Conn config).system.Takes labels state label →
      WindowKept state label)
    {state : Crowd (sig Ws Conn) Cooldowns Client (Option (Upstream Ws Conn))}
    (hvisits : (clients Ws Conn config).system.Visits labels state) :
    ∀ thread ∈ state.threads, Steady thread.done := by
  refine World.visits_thread (fun thread => Steady thread.done) ?_ ?_ hvisits
  · intro job before dc isMedia after heq
    simp at heq
  · rintro state label thread event next htakes
      ⟨index, outside, rest, rfl, hthread, hrest, hreply, -⟩ hsteady
    refine hsteady.snoc ?_
    rintro dc isMedia hlast rfl
    -- The second read answers from the maps, which hold no window.
    have hwindow := hkept state _ htakes thread hthread dc isMedia rest hlast hrest
    exact absurd (hwindow.symm.trans hreply) Bool.false_ne_true

theorem ip_blamed_in_full (config : Config) (labels : List (Label (sig Ws Conn) Client))
    (hkept : ∀ state label, (clients Ws Conn config).system.Takes labels state label →
      WindowKept state label)
    (state : Crowd (sig Ws Conn) Cooldowns Client (Option (Upstream Ws Conn)))
    (hvisits : (clients Ws Conn config).system.Visits labels state) :
    ∀ thread ∈ state.threads, BlamesInFull config thread.done := by
  intro thread hthread
  obtain ⟨tail, value, hruns⟩ := (World.visits_reaches hvisits thread hthread).exists_run silence
  have hblamed := Blamed.selectUpstream (thread.job.route config) _ _ _ hruns
  exact (steady_of_windowKept hkept hvisits thread hthread).blamesInFull hblamed

/-- One `--dc-ip` address and nothing to fall back on. -/
def oneAddressConfig : Config := { dcIp := [(2, "149.154.167.220")] }

def plainClient : Client := ⟨2, false, 2, .abridged⟩

/-- What a client does whose dials all time out, with the answer to its second read
of the window. -/
def timedOutTrace (cooling : Bool) (timeout : Nat) : Trace (sig Unit Unit) :=
  [⟨.active (.ip "149.154.167.220"), false⟩, ⟨.active (.ip "149.154.167.220"), false⟩,
    ⟨.poolGet 2 false "149.154.167.220" false true, none⟩,
    ⟨.active (.ws 2 false), false⟩, ⟨.active (.ws 2 false), cooling⟩] ++
  [⟨.connectWs "149.154.167.220" "kws2.web.telegram.org" false timeout none,
      WsConnectResult.connectTimedOut ""⟩,
    ⟨.connectWs "149.154.167.220" "kws2-1.web.telegram.org" false timeout none,
      WsConnectResult.connectTimedOut ""⟩,
    ⟨.set (.ws 2 false) 30, ()⟩, ⟨.set (.ip "149.154.167.220") 3600, ()⟩]

/-- A client on its own. -/
def fullBudgetRun : List (Label (sig Unit Unit) Client) :=
  .arrive plainClient :: List.replicate 9 (.call 0 silence)

theorem ip_blamed_in_full_fullBudgetRun :
    ∃ state, (clients Unit Unit oneAddressConfig).system.Visits fullBudgetRun state ∧
      ∃ thread ∈ state.threads, thread.done = timedOutTrace false 10 ∧
        BlamesInFull oneAddressConfig thread.done := by
  have hkept : (clients Unit Unit oneAddressConfig).system.Along WindowKept
      (clients Unit Unit oneAddressConfig).system.start fullBudgetRun := by
    refine .cons _ trivial rfl (.cons _ ?_ rfl (.cons _ ?_ rfl (.cons _ ?_ rfl (.cons _ ?_ rfl
      (.cons _ ?_ rfl (.cons _ ?_ rfl (.cons _ ?_ rfl (.cons _ ?_ rfl (.cons _ ?_ rfl
        (.nil _))))))))))
    all_goals
      rintro thread ⟨⟩ dc isMedia rest hlast hrest
      first
        | cases hlast; done
        | cases hrest; done
        | cases hlast; rfl
  refine ⟨_, ⟨fullBudgetRun, [], rfl, rfl⟩, _, List.mem_cons_self, rfl, ?_⟩
  exact ip_blamed_in_full oneAddressConfig fullBudgetRun (fun _ _ htakes => hkept.takes _ htakes)
    _ ⟨fullBudgetRun, [], rfl, rfl⟩ _ List.mem_cons_self

/-- The first client has read that no window is open when the second one fails and
opens it; the first one then dials with the timeout of a probe. -/
def overtakenRun : List (Label (sig Unit Unit) Client) :=
  [.arrive plainClient, .arrive plainClient] ++ List.replicate 4 (.call 0 silence) ++
    List.replicate 8 (.call 1 silence) ++ List.replicate 5 (.call 0 silence)

theorem ip_blamed_by_probe :
    ∃ state, (clients Unit Unit oneAddressConfig).system.Visits overtakenRun state ∧
      ∃ thread ∈ state.threads, thread.done = timedOutTrace true 2 ∧
        oneAddressConfig.wsConnectTimeout = 10 ∧
        ¬ BlamesInFull oneAddressConfig thread.done := by
  refine ⟨_, ⟨overtakenRun, [], rfl, rfl⟩, _, List.mem_cons_self, rfl, rfl, ?_⟩
  intro hfull
  obtain ⟨htimeouts, -⟩ :=
    hfull (timedOutTrace true 2).dropLast "149.154.167.220" 3600 [] rfl
  have hdial : ⟨.connectWs "149.154.167.220" "kws2.web.telegram.org" false 2 none,
      WsConnectResult.connectTimedOut ""⟩ ∈ attempt (timedOutTrace true 2).dropLast :=
    List.mem_of_mem_head? rfl
  exact absurd (htimeouts _ hdial 2 rfl) (by decide)

end TgWsProxy.Routing
