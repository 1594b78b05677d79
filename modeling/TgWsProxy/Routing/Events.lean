import TgWsProxy.Routing.Model

/-!
# What a trace of routing shows

Which rung an operation belongs to, which endpoint it dials, and which upstream
its answer gives. On top of these, what it means that a stretch of a trace walks
one rung.
-/

namespace TgWsProxy.Routing

open Foundation.Effect TgWsProxy.Cloudflare TgWsProxy.Pool

/-- The rung whose pool or endpoints an operation touches. -/
def Op.tier? : Op → Option UpstreamTier
  | .poolGet _ _ _ _ _ | .connectWs _ _ _ _ _ => some .ws
  | .cfGet .worker _ _ => some .cfworker
  | .cfGet .proxy _ _ => some .cfproxy
  | .connectCf _ _ requestBinarySubprotocol _ _ _ _ =>
      some (if requestBinarySubprotocol then .cfproxy else .cfworker)
  | .connectMtproto _ _ _ _ => some .mtproto
  | .active _ | .set _ _ | .clear _ | .fetchAdd _ | .cfPrefetch _ => none

inductive Endpoint
  | direct (ip hostname : String)
  | worker (domain : String)
  | record (name : String)
  | upstream (proxy : MtProtoProxy)
  deriving DecidableEq, Repr

/-- The endpoint that an operation dials. -/
def Op.endpoint? : Op → Option Endpoint
  | .connectWs ip domain _ _ _ => some (.direct ip domain)
  | .connectCf domain _ requestBinarySubprotocol _ _ _ _ =>
      some (if requestBinarySubprotocol then .record domain else .worker domain)
  | .connectMtproto proxy _ _ _ => some (.upstream proxy)
  | .active _ | .set _ _ | .clear _ | .fetchAdd _ | .cfPrefetch _ | .poolGet _ _ _ _ _
  | .cfGet _ _ _ => none

/-- The cooldown that gates an endpoint. -/
def Endpoint.cooldown? : Endpoint → Option CooldownKey
  | .worker domain => some (.cfWorker domain)
  | .upstream proxy => some (.upstream (upstreamKey proxy))
  | .direct _ _ | .record _ => none

variable {Ws Conn : Type}

/-- The connection that an attempt yielded. -/
def WsConnectResult.ws? : WsConnectResult Ws → Option Ws
  | .connected ws => some ws
  | .redirect _ | .failed _ | .connectTimedOut _ | .timedOut => none

/-- The upstream that an answer gives, with the framing of its rung. -/
def upstream? : Event (sig Ws Conn) → Option (Upstream Ws Conn)
  | ⟨.poolGet _ _ _ _ _, pooled⟩ => pooled.map fun ws => .ws ws .packets
  | ⟨.cfGet .worker _ _, pooled⟩ => pooled.map fun pooled => .ws pooled.1 .tunnel
  | ⟨.cfGet .proxy _ _, pooled⟩ => pooled.map fun pooled => .ws pooled.1 .packets
  | ⟨.connectWs _ _ _ _ _, result⟩ => (WsConnectResult.ws? result).map fun ws => .ws ws .packets
  | ⟨.connectCf _ _ requestBinarySubprotocol _ _ _ _, result⟩ =>
      (WsConnectResult.ws? result).map fun ws =>
        .ws ws (if requestBinarySubprotocol then .packets else .tunnel)
  | ⟨.connectMtproto _ _ _ _, conn⟩ => conn.map .mtproto
  | ⟨.active _, _⟩ | ⟨.set _ _, _⟩ | ⟨.clear _, _⟩ | ⟨.fetchAdd _, _⟩ | ⟨.cfPrefetch _, _⟩ => none

/-- The kind and framing that a rung produces. -/
def Upstream.OfTier : Upstream Ws Conn → UpstreamTier → Prop
  | .ws _ framing, tier =>
      (framing = .packets ∧ (tier = .ws ∨ tier = .cfproxy)) ∨
        (framing = .tunnel ∧ tier = .cfworker)
  | .mtproto _, tier => tier = .mtproto
  | .tcp _, tier => tier = .tcp

theorem upstream?_eq_none_of_tier {event : Event (sig Ws Conn)} (htier : event.op.tier? = none) :
    upstream? event = none := by
  obtain ⟨op, reply⟩ := event
  cases op with
  | cfGet tier _ _ => cases tier <;> cases htier
  | poolGet _ _ _ _ _ | connectWs _ _ _ _ _ | connectCf _ _ _ _ _ _ _
  | connectMtproto _ _ _ _ => cases htier
  | active _ | set _ _ | clear _ | fetchAdd _ | cfPrefetch _ => rfl

theorem endpoint?_eq_none_of_tier {op : Op} (htier : op.tier? = none) : op.endpoint? = none := by
  cases op with
  | cfGet tier _ _ => cases tier <;> cases htier
  | poolGet _ _ _ _ _ | connectWs _ _ _ _ _ | connectCf _ _ _ _ _ _ _
  | connectMtproto _ _ _ _ => cases htier
  | active _ | set _ _ | clear _ | fetchAdd _ | cfPrefetch _ => rfl

theorem upstream?_ofTier {event : Event (sig Ws Conn)} {tier : UpstreamTier}
    {upstream : Upstream Ws Conn} (htier : event.op.tier? = some tier)
    (hupstream : upstream? event = some upstream) : upstream.OfTier tier := by
  obtain ⟨op, reply⟩ := event
  cases op with
  | poolGet _ _ _ _ _ | connectWs _ _ _ _ _ =>
      cases htier
      obtain ⟨ws, -, rfl⟩ := Option.map_eq_some_iff.mp hupstream
      exact .inl ⟨rfl, .inl rfl⟩
  | cfGet pool _ _ =>
      cases pool with
      | worker =>
          cases htier
          obtain ⟨pooled, -, rfl⟩ := Option.map_eq_some_iff.mp hupstream
          exact .inr ⟨rfl, rfl⟩
      | proxy =>
          cases htier
          obtain ⟨pooled, -, rfl⟩ := Option.map_eq_some_iff.mp hupstream
          exact .inl ⟨rfl, .inr rfl⟩
  | connectCf _ _ requestBinarySubprotocol _ _ _ _ =>
      obtain ⟨ws, -, rfl⟩ := Option.map_eq_some_iff.mp hupstream
      cases requestBinarySubprotocol with
      | true =>
          cases htier
          exact .inl ⟨rfl, .inr rfl⟩
      | false =>
          cases htier
          exact .inr ⟨rfl, rfl⟩
  | connectMtproto _ _ _ _ =>
      cases htier
      obtain ⟨conn, -, rfl⟩ := Option.map_eq_some_iff.mp hupstream
      rfl
  | active _ | set _ _ | clear _ | fetchAdd _ | cfPrefetch _ => cases htier

/-! ## Quiet stretches and dials -/

/-- Only bookkeeping: no pool is asked and nothing is dialled. -/
def Quiet (trace : Trace (sig Ws Conn)) : Prop := ∀ event ∈ trace, event.op.tier? = none

/-- The endpoints that a trace dials, in order. -/
def dialled (trace : Trace (sig Ws Conn)) : List Endpoint :=
  trace.filterMap fun event => event.op.endpoint?

@[simp] theorem dialled_append (first second : Trace (sig Ws Conn)) :
    dialled (first ++ second) = dialled first ++ dialled second := List.filterMap_append

namespace Quiet

variable {first second trace : Trace (sig Ws Conn)}

theorem nil : Quiet ([] : Trace (sig Ws Conn)) := fun _ hmem => (List.not_mem_nil hmem).elim

theorem cons {event : Event (sig Ws Conn)} (hevent : event.op.tier? = none)
    (htrace : Quiet trace) : Quiet (event :: trace) := by
  intro other hother
  rcases List.mem_cons.mp hother with rfl | hother
  · exact hevent
  · exact htrace other hother

theorem append (hfirst : Quiet first) (hsecond : Quiet second) : Quiet (first ++ second) := by
  intro event hevent
  rcases List.mem_append.mp hevent with hevent | hevent
  · exact hfirst event hevent
  · exact hsecond event hevent

theorem dialled_eq_nil (htrace : Quiet trace) : dialled trace = [] := by
  rw [dialled, List.filterMap_eq_nil_iff]
  intro event hevent
  exact endpoint?_eq_none_of_tier (htrace event hevent)

theorem additive : Additive (Quiet : Trace (sig Ws Conn) → Prop) := ⟨.nil, .append⟩

end Quiet

/-! ## Walking one rung -/

/-- The trace stays on one rung; the first answer that gives an upstream decides
the outcome, and nothing is tried after it. -/
structure Walked (rung : UpstreamTier) (trace : Trace (sig Ws Conn))
    (outcome : Option (Upstream Ws Conn)) : Prop where
  own : ∀ event ∈ trace, ∀ tier, event.op.tier? = some tier → tier = rung
  first : trace.findSome? upstream? = outcome
  stops : trace.Pairwise fun earlier later =>
    (upstream? earlier).isSome → later.op.tier? = none

namespace Walked

variable {rung : UpstreamTier} {first second trace : Trace (sig Ws Conn)}
variable {outcome : Option (Upstream Ws Conn)}

theorem quiet (htrace : Quiet trace) : Walked rung trace none where
  own event hevent tier htier := by
    rw [htrace event hevent] at htier
    cases htier
  first := by
    rw [List.findSome?_eq_none_iff]
    intro event hevent
    exact upstream?_eq_none_of_tier (htrace event hevent)
  stops := by
    apply List.pairwise_of_forall_mem_list
    intro earlier _ later hlater _
    exact htrace later hlater

theorem event {event : Event (sig Ws Conn)} (htier : event.op.tier? = some rung) :
    Walked rung [event] (upstream? event) where
  own other hother tier hother_tier := by
    rw [List.mem_singleton.mp hother, htier] at hother_tier
    exact (Option.some.inj hother_tier).symm
  first := by simp only [List.findSome?_singleton]
  stops := List.pairwise_singleton _ _

theorem no_upstream (hwalked : Walked rung trace none) {event : Event (sig Ws Conn)}
    (hevent : event ∈ trace) : upstream? event = none :=
  List.findSome?_eq_none_iff.mp hwalked.first event hevent

theorem append (hfirst : Walked rung first none) (hsecond : Walked rung second outcome) :
    Walked rung (first ++ second) outcome where
  own event hevent := by
    rcases List.mem_append.mp hevent with hevent | hevent
    · exact hfirst.own event hevent
    · exact hsecond.own event hevent
  first := by
    rw [List.findSome?_append, hfirst.first, hsecond.first]
    rfl
  stops := by
    refine List.pairwise_append.mpr ⟨hfirst.stops, hsecond.stops, ?_⟩
    intro earlier hearlier later _ hsome
    rw [hfirst.no_upstream hearlier] at hsome
    cases hsome

theorem append_quiet (hfirst : Walked rung first outcome) (hsecond : Quiet second) :
    Walked rung (first ++ second) outcome where
  own event hevent := by
    rcases List.mem_append.mp hevent with hevent | hevent
    · exact hfirst.own event hevent
    · exact (quiet hsecond).own event hevent
  first := by
    rw [List.findSome?_append, hfirst.first, (@quiet _ _ rung _ hsecond).first, Option.or_none]
  stops := by
    refine List.pairwise_append.mpr ⟨hfirst.stops, (@quiet _ _ rung _ hsecond).stops, ?_⟩
    intro _ _ later hlater _
    exact hsecond later hlater

theorem ofTier (hwalked : Walked rung trace outcome) {upstream : Upstream Ws Conn}
    (hupstream : outcome = some upstream) : upstream.OfTier rung := by
  obtain ⟨event, hevent, heq⟩ :=
    List.exists_of_findSome?_eq_some (hwalked.first.trans hupstream)
  cases htier : event.op.tier? with
  | none =>
      rw [upstream?_eq_none_of_tier htier] at heq
      cases heq
  | some tier =>
      rw [← hwalked.own event hevent tier htier]
      exact upstream?_ofTier htier heq

end Walked

/-! ## Cooldown gates -/

/-- Right before each dial of an endpoint that has a cooldown, the cooldown was
found inactive. -/
def Gated (trace : Trace (sig Ws Conn)) : Prop :=
  ∀ before event after, trace = before ++ event :: after →
    ∀ key, event.op.endpoint?.bind Endpoint.cooldown? = some key →
      before.getLast? = some ⟨.active key, false⟩

namespace Gated

variable {first second trace : Trace (sig Ws Conn)}

/-- A trace that dials no endpoint with a cooldown. -/
theorem of_ungated (htrace : ∀ event ∈ trace, event.op.endpoint?.bind Endpoint.cooldown? = none) :
    Gated trace := by
  rintro before event after rfl key hkey
  rw [htrace event (by simp)] at hkey
  cases hkey

theorem of_quiet (htrace : Quiet trace) : Gated trace := by
  apply of_ungated
  intro event hevent
  rw [endpoint?_eq_none_of_tier (htrace event hevent)]
  rfl

theorem append (hfirst : Gated first) (hsecond : Gated second) : Gated (first ++ second) := by
  intro before event after heq key hkey
  rcases List.append_eq_append_iff.mp heq with ⟨inner, rfl, hrest⟩ | ⟨inner, hrest, heq⟩
  · have hlast := hsecond inner event after hrest key hkey
    rw [List.getLast?_append, hlast]
    rfl
  · cases inner with
    | nil =>
        have hlast := hsecond [] event after heq.symm key hkey
        cases hlast
    | cons head tail =>
        obtain ⟨rfl, -⟩ := List.cons.inj heq
        exact hfirst before event tail hrest key hkey

/-- A dial right behind its gate. -/
theorem dial {event : Event (sig Ws Conn)} {key : CooldownKey}
    (hkey : event.op.endpoint?.bind Endpoint.cooldown? = some key) :
    Gated [⟨.active key, false⟩, event] := by
  intro before other after heq otherKey hother
  match before, heq with
  | [], heq =>
      cases heq
      cases hother
  | [_], heq =>
      cases heq
      rw [hkey] at hother
      cases hother
      rfl
  | _ :: _ :: _, heq => simp at heq

end Gated

end TgWsProxy.Routing
