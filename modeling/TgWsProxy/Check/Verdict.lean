import TgWsProxy.Check.Model
import TgWsProxy.Crypto.Agreement

/-!
# The verdict of the check

The check passes when every probe that was asked for was made and passed. No probe is left
out because another one failed, and a run that only skipped does not pass.
-/

namespace TgWsProxy.Check

open Foundation.Effect
open TgWsProxy.Crypto TgWsProxy.FakeTls
open Foundation.Effect.Program (Runs)
open Foundation.Hex (Codec)

/-- A probe that was made: what it did, and how it ended. -/
structure Probed (hex : Codec) where
  target : Target hex
  trace : Trace probeSig
  status : ProbeStatus

section Verdict

variable {hex : Codec} {hmac : Hmac} {prim : Primitives} {settings : Settings hex}

variable (hmac prim settings) in
/-- The probes of the targets, one after the other. -/
structure Made (targets : List (Target hex)) (trace : Trace probeSig)
    (made : List (Probed hex)) : Prop where
  targets : made.map Probed.target = targets
  runs : ∀ probed ∈ made, Runs (probe hmac prim settings probed.target) probed.trace
    (.ok probed.status)
  trace : trace = (made.map Probed.trace).flatten

theorem Made.append {targets others : List (Target hex)} {trace later : Trace probeSig}
    {made more : List (Probed hex)} (hmade : Made hmac prim settings targets trace made)
    (hmore : Made hmac prim settings others later more) :
    Made hmac prim settings (targets ++ others) (trace ++ later) (made ++ more) where
  targets := by rw [List.map_append, hmade.targets, hmore.targets]
  runs probed hmem := by
    rcases List.mem_append.mp hmem with hmem | hmem
    · exact hmade.runs probed hmem
    · exact hmore.runs probed hmem
  trace := by rw [List.map_append, List.flatten_append, ← hmade.trace, ← hmore.trace]

theorem made_nil : Made hmac prim settings [] [] [] :=
  ⟨rfl, fun _ hmem => (List.not_mem_nil hmem).elim, rfl⟩

theorem orFault_runs {α β : Type} {first : Probe (Except Fault α)}
    {next : α → Probe (Except Fault β)} {trace : Trace probeSig} {value : β}
    (hrun : Runs (orFault first next) trace (.ok value)) :
    ∃ before after result, trace = before ++ after ∧ Runs first before (.ok result) ∧
      Runs (next result) after (.ok value) := by
  obtain ⟨before, after, result, rfl, hfirst, hnext⟩ := Program.runs_bind_iff.mp hrun
  cases result with
  | error fault =>
      obtain ⟨-, hvalue⟩ := Runs.of_pure hnext
      cases hvalue
  | ok result => exact ⟨before, after, result, rfl, hfirst, hnext⟩

/-- One loop of the check. -/
theorem probeAll_made {targets : List (Target hex)} {allOk verdict : Bool} {trace : Trace probeSig}
    (hrun : Runs (probeAll hmac prim settings targets allOk) trace (.ok verdict)) :
    ∃ made, Made hmac prim settings targets trace made ∧
      (verdict = true ↔ allOk = true ∧ ∀ probed ∈ made, probed.status.isOk = true) := by
  induction targets generalizing allOk trace with
  | nil =>
      obtain ⟨rfl, hverdict⟩ := hrun.of_pure
      cases hverdict
      exact ⟨[], made_nil, by simp⟩
  | cons target targets ih =>
      obtain ⟨first, rest, status, rfl, hfirst, hrest⟩ := orFault_runs hrun
      obtain ⟨made, hmade, hverdict⟩ := ih hrest
      refine ⟨⟨target, first, status⟩ :: made, ⟨?_, ?_, ?_⟩, ?_⟩
      · rw [List.map_cons, hmade.targets]
      · exact List.forall_mem_cons.mpr ⟨hfirst, hmade.runs⟩
      · rw [List.map_cons, List.flatten_cons, ← hmade.trace]
      · rw [hverdict, List.forall_mem_cons]
        cases hstatus : status.isOk <;> simp

/-- The own listener is probed where it can be. -/
def listenerTargets (settings : Settings hex) (listener : Option ListenAddr) : List (Target hex) :=
  match listener with
  | none => []
  | some addr =>
      if settings.checkListener && !settings.started.listenFaketlsDomain.isSome then
        [.listener (probeAddr addr).1 (probeAddr addr).2]
      else []

def targets (settings : Settings hex) (listener : Option ListenAddr) : List (Target hex) :=
  settings.config.cfDomains.map .cfDomain ++ settings.config.cfWorkerDomains.map .cfWorker ++
    settings.proxies.map .proxy ++ listenerTargets settings listener

theorem checkOwnListener_made {listener : Option ListenAddr} {allOk verdict : Bool} {skipped : Nat}
    {trace : Trace probeSig}
    (hrun : Runs (checkOwnListener hmac prim settings listener allOk) trace
      (.ok (verdict, skipped))) :
    ∃ made, Made hmac prim settings (listenerTargets settings listener) trace made ∧
      (verdict = true ↔ allOk = true ∧ (∀ probed ∈ made, probed.status.isOk = true) ∧
        (settings.checkListener = true → listener.isSome = true)) ∧
      (verdict = true → skipped = settings.checkListener.toNat - made.length) := by
  unfold checkOwnListener at hrun
  unfold listenerTargets
  cases hcheck : settings.checkListener with
  | false =>
      rw [hcheck] at hrun
      obtain ⟨rfl, hverdict⟩ := Runs.of_pure hrun
      cases hverdict
      refine ⟨[], ?_, by simp, fun _ => rfl⟩
      cases listener <;> exact made_nil
  | true =>
      rw [hcheck, if_pos rfl] at hrun
      cases listener with
      | none =>
          obtain ⟨rfl, hverdict⟩ := Runs.of_pure hrun
          cases hverdict
          exact ⟨[], made_nil, by simp, nofun⟩
      | some addr =>
          cases hdomain : settings.started.listenFaketlsDomain.isSome with
          | true =>
              simp only [hdomain, if_true] at hrun
              obtain ⟨rfl, hverdict⟩ := Runs.of_pure hrun
              cases hverdict
              exact ⟨[], made_nil, by simp, fun _ => rfl⟩
          | false =>
              simp only [hdomain, Bool.false_eq_true, if_false] at hrun
              obtain ⟨first, rest, probedOk, rfl, hfirst, hrest⟩ := orFault_runs hrun
              obtain ⟨rfl, hverdict⟩ := Runs.of_pure hrest
              cases hverdict
              obtain ⟨made, hmade, hok⟩ := probeAll_made hfirst
              have hlength : made.length = 1 := by
                have htargets := congrArg List.length hmade.targets
                simpa using htargets
              refine ⟨made, ?_, by simp [hok], fun _ => ?_⟩
              · rw [List.append_nil]
                exact hmade
              · rw [hlength]
                rfl

theorem length_listenerTargets_le (settings : Settings hex) (listener : Option ListenAddr) :
    (listenerTargets settings listener).length ≤ settings.checkListener.toNat := by
  unfold listenerTargets
  cases settings.checkListener <;> cases listener <;>
    cases settings.started.listenFaketlsDomain.isSome <;> simp

end Verdict

/-- With nothing to probe the check passes and does nothing. Otherwise it probes every
Cloudflare domain, Worker and upstream proxy and the own listener once, in this order and
whatever the earlier ones came to; and it passes exactly when all of them did, at least one
was made, and there was a listener if one was to be checked. -/
theorem check_verdict {hex : Codec} (hmac : Hmac) (prim : Primitives) (settings : Settings hex)
    (listener : Option ListenAddr) {trace : Trace probeSig} {verdict : Bool}
    (hrun : Runs (runCheckWithOutbound hmac prim settings listener) trace (.ok verdict)) :
    (settings.requested = 0 ∧ trace = [] ∧ verdict = true) ∨
    (settings.requested ≠ 0 ∧
      ∃ made, Made hmac prim settings (targets settings listener) trace made ∧
        (verdict = true ↔ (∀ probed ∈ made, probed.status.isOk = true) ∧ made ≠ [] ∧
          (settings.checkListener = true → listener.isSome = true))) := by
  unfold runCheckWithOutbound at hrun
  split at hrun
  next hnothing =>
    obtain ⟨rfl, hverdict⟩ := Runs.of_pure hrun
    cases hverdict
    exact .inl ⟨hnothing, rfl, rfl⟩
  next hrequested =>
    refine .inr ⟨hrequested, ?_⟩
    obtain ⟨_, _, domainsOk, rfl, hdomains, hrest⟩ := orFault_runs hrun
    obtain ⟨_, _, workersOk, rfl, hworkers, hrest⟩ := orFault_runs hrest
    obtain ⟨_, _, proxiesOk, rfl, hproxies, hrest⟩ := orFault_runs hrest
    obtain ⟨_, _, ⟨listenerOk, skipped⟩, rfl, hlistener, hlast⟩ := orFault_runs hrest
    obtain ⟨rfl, hverdict⟩ := Runs.of_pure hlast
    cases hverdict
    obtain ⟨domains, hdomainsMade, hdomainsOk⟩ := probeAll_made hdomains
    obtain ⟨workers, hworkersMade, hworkersOk⟩ := probeAll_made hworkers
    obtain ⟨proxies, hproxiesMade, hproxiesOk⟩ := probeAll_made hproxies
    obtain ⟨own, hownMade, hownOk, hskipped⟩ := checkOwnListener_made hlistener
    refine ⟨domains ++ workers ++ proxies ++ own, ?_, ?_⟩
    · rw [List.append_nil, ← List.append_assoc, ← List.append_assoc]
      exact ((hdomainsMade.append hworkersMade).append hproxiesMade).append hownMade
    · -- All requested probes were skipped exactly when none was made.
      have hcount : listenerOk = true →
          (settings.requested ≠ skipped ↔ domains ++ workers ++ proxies ++ own ≠ []) := by
        intro hok
        have hfewer := length_listenerTargets_le settings listener
        have hdomainsLength := congrArg List.length hdomainsMade.targets
        have hworkersLength := congrArg List.length hworkersMade.targets
        have hproxiesLength := congrArg List.length hproxiesMade.targets
        rw [← hownMade.targets] at hfewer
        simp only [List.length_map] at hdomainsLength hworkersLength hproxiesLength hfewer
        rw [hskipped hok, ← List.length_pos_iff, List.length_append, List.length_append,
          List.length_append, hdomainsLength, hworkersLength, hproxiesLength]
        unfold Settings.requested
        omega
      simp only [List.forall_mem_append]
      rw [Bool.and_eq_true, decide_eq_true_iff]
      constructor
      · rintro ⟨hok, hskip⟩
        obtain ⟨hproxied, hown, hbound⟩ := hownOk.mp hok
        obtain ⟨hworked, hproxies⟩ := hproxiesOk.mp hproxied
        obtain ⟨hdomained, hworkers⟩ := hworkersOk.mp hworked
        obtain ⟨-, hdomains⟩ := hdomainsOk.mp hdomained
        exact ⟨⟨⟨⟨hdomains, hworkers⟩, hproxies⟩, hown⟩, (hcount hok).mp hskip, hbound⟩
      · rintro ⟨⟨⟨⟨hdomains, hworkers⟩, hproxies⟩, hown⟩, hmade, hbound⟩
        have hok := hownOk.mpr ⟨hproxiesOk.mpr ⟨hworkersOk.mpr ⟨hdomainsOk.mpr ⟨rfl, hdomains⟩,
          hworkers⟩, hproxies⟩, hown, hbound⟩
        exact ⟨hok, (hcount hok).mpr hmade⟩

/-- A domain, and a FakeTLS listener, which is skipped. -/
def posingSettings : Settings Foundation.Hex.standard where
  started :=
    { posingStarted with config := { posingStarted.config with cfDomains := ["a.example"] } }
  proxies := []
  cfIps := false
  checkListener := true
  handshakeTimeout := 10
  tcpFallbackTimeout := 10

theorem check_verdict_posing :
    let hmac : Hmac := fun _ _ => List.Vector.replicate 32 0
    ∃ made, Made hmac samplePrimitives posingSettings [.cfDomain "a.example"]
        [⟨.connectCf "a.example", true⟩] made ∧
      ∀ probed ∈ made, probed.status.isOk = true := by
  intro hmac
  have hrun : Runs (runCheckWithOutbound hmac samplePrimitives posingSettings
      (some ⟨"0.0.0.0", false, true, 1443⟩)) [⟨.connectCf "a.example", true⟩] (.ok true) :=
    @Runs.call probeSig _ (.connectCf "a.example") _ true _ _ (.pure _)
  rcases check_verdict hmac samplePrimitives posingSettings _ hrun with
    ⟨hnothing, -⟩ | ⟨-, made, hmade, hverdict⟩
  · cases hnothing
  · exact ⟨made, hmade, (hverdict.mp rfl).1⟩

end TgWsProxy.Check
