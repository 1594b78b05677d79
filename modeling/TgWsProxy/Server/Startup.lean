import TgWsProxy.Check.Model
import TgWsProxy.Config.Startup
import TgWsProxy.Crypto.Agreement
import TgWsProxy.Foundation.Attempt
import TgWsProxy.Outbound.Sources
import TgWsProxy.Server.Accept

/-!
# From the command line to the exit status

`run_with_listen` as a program over what it does to the outside: the download of the default
domains, the check, the listening socket, and the accept loop. A step that waits also ends
when the shutdown comes. `main` turns the result into the exit status of the process.
-/

namespace TgWsProxy.Server

open Foundation Foundation.Effect Foundation.Machine Foundation.Transition
open TgWsProxy.Crypto TgWsProxy.FakeTls
open Check (ListenAddr runCheckWithOutbound)
open Foundation.Effect.Program (Reaches Runs)
open Foundation.Hex (Codec)

/-! ## Model -/

inductive RunError
  | invalidOutbound (reason : String)
  | invalidPin (reason : String)
  | invalidListenAddress (address : String)
  | bind (addr : ListenAddr) (source : String)
  | checkFailed

/-- How a socket address is written. -/
def addrText (addr : ListenAddr) : String :=
  (if addr.isIpv6 then "[" ++ addr.ip ++ "]" else addr.ip) ++ s!":{addr.port}"

def RunError.message : RunError → String
  | .invalidOutbound reason => "invalid outbound proxy config: " ++ reason
  | .invalidPin reason => "invalid pinned upstream config: " ++ reason
  | .invalidListenAddress address => "invalid listen address: " ++ address
  | .bind addr source => "cannot bind " ++ addrText addr ++ ": " ++ source
  | .checkFailed => "connectivity check failed"

/-- How a run of the server ends. -/
inductive Ended
  | returned (result : Except RunError Unit)
  | panicked

/-- What `run_with_listen` reads of the configuration. -/
structure Settings (hex : Codec) where
  checks : Check.Settings hex
  defaultDomains : Bool
  check : Bool
  /-- `with_defaults` has seen to this. -/
  implied : checks.checkListener = true → check = true
  host : Option String
  port : Nat
  linkIp : Option String
  maxConnections : Option Nat

namespace Settings

variable {hex : Codec} (settings : Settings hex)

def config : Config := settings.checks.config

/-- `config.cf_domains.extend(fetched)`. -/
def extend (fetched : List String) : Settings hex :=
  { settings with
    checks :=
      { settings.checks with
        started :=
          { settings.checks.started with
            config :=
              { settings.checks.started.config with
                cfDomains := settings.checks.started.config.cfDomains ++ fetched }
            decoded := settings.checks.started.decoded } } }

def effectiveMaxConnections (width : PointerWidth) (fdLimit : Nat) : Nat :=
  settings.maxConnections.getD
    (autoMaxConnections width fdLimit settings.config.poolSize (Pool.dcBuckets settings.config))

end Settings

section Program

variable {hex : Codec} (hmac : Hmac) (prim : Primitives) (width : PointerWidth)

/-- An outcome of the check; a fault ends its task. -/
abbrev Checked (settings : Settings hex) (listener : Option ListenAddr) :=
  { outcome : Except Fault Bool //
    ∃ trace, Runs (runCheckWithOutbound hmac prim settings.checks listener) trace outcome }

/-- What the accept loop was left for: a shutdown, or the verdict of the check that runs
beside it, which has failed when its task ended without one. -/
abbrev Served (settings : Settings hex) (bound : ListenAddr) (maxConnections : Nat) :=
  { verdict : Option Bool //
    (∃ labels state, (serverSystem settings.config width settings.check maxConnections).run labels =
      some state ∧ state.loop = .stopped verdict) ∧
    ∀ allOk, verdict = some allOk →
      ∃ outcome : Checked hmac prim settings (some bound), allOk = decide (outcome.val = .ok true) }

inductive Op (hex : Codec)
  | fetch
  | check (settings : Settings hex)
  | detectLanIp
  | bind (addr : ListenAddr)
  /-- `/proc/self/limits`. -/
  | limits
  | onListen (addr : ListenAddr) (tgLink : String)
  | spawnWarmup
  | spawnCheck (addr : ListenAddr)
  | serve (settings : Settings hex) (bound : ListenAddr) (maxConnections : Nat)

/-- A step that was left for the shutdown has no answer. -/
@[reducible] def Reply : Op hex → Type
  | .fetch => Option (Except String Text)
  | .check settings => Option (Checked hmac prim settings none)
  | .detectLanIp => Option String
  | .bind _ => Except String (Option ListenAddr)
  | .limits => Option Text
  | .onListen _ _ | .spawnWarmup | .spawnCheck _ => Unit
  | .serve settings bound maxConnections => Served hmac prim width settings bound maxConnections

abbrev startSig (hex : Codec) : Signature := ⟨Op hex, Reply hmac prim width⟩

abbrev Start (hex : Codec) (α : Type) := ExceptT Ended (Program (startSig hmac prim width hex)) α

def perform (op : Op hex) : Start hmac prim width hex (Reply hmac prim width op) :=
  .mk (@Program.perform (startSig hmac prim width hex) op >>= fun reply => pure (.ok reply))

def fail {α : Type} (error : RunError) : Start hmac prim width hex α :=
  throw (.returned (.error error))

/-- The default domains, or the end of the run where the shutdown comes first. -/
def fetchDomains (settings : Settings hex) : Start hmac prim width hex (Settings hex) :=
  if settings.defaultDomains then do
    match ← perform hmac prim width .fetch with
    | none => throw (.returned (.ok ()))
    | some outcome =>
        pure (settings.extend ((DefaultDomains.fetchDefaultDomains outcome).map String.ofList))
  else pure settings

/-- `detect_lan_ip` is asked anew each time. -/
def bindHost (settings : Settings hex) : Start hmac prim width hex String :=
  match settings.host with
  | some host => pure host
  | none => do
      let lanIp ← perform hmac prim width .detectLanIp
      pure (if lanIp.isSome then "0.0.0.0" else "127.0.0.1")

def isLocal (host : String) : Bool :=
  ["0.0.0.0", "::", "127.0.0.1", "::1"].contains host

def linkHost (settings : Settings hex) : Start hmac prim width hex String :=
  match settings.linkIp with
  | some ip => pure ip
  | none => do
      let host ← bindHost hmac prim width settings
      if isLocal host then do
        let lanIp ← perform hmac prim width .detectLanIp
        pure (lanIp.getD host)
      else pure host

def tgLink (host : String) (port : Nat) (secret : String) : String :=
  "tg://proxy?server=" ++ host ++ s!"&port={port}&secret=" ++ secret

/-- The most permits that a semaphore may have. -/
def maxPermits : Nat := width.usizeMax >>> 3

/-- The check that runs beside the accept loop. -/
def spawnListenerCheck (settings : Settings hex) (bound : ListenAddr) :
    Start hmac prim width hex Unit :=
  if settings.check then perform hmac prim width (.spawnCheck bound) else pure ()

/-- From the warm-up of the pool to the end of the accept loop. -/
def serve (settings : Settings hex) (bound : ListenAddr) (maxConnections : Nat) :
    Start hmac prim width hex Ended := do
  perform hmac prim width .spawnWarmup
  spawnListenerCheck hmac prim width settings bound
  -- `Semaphore::new` does not take more.
  if maxPermits width < maxConnections then throw .panicked
  else do
    let served ← perform hmac prim width (.serve settings bound maxConnections)
    match served.val with
    | none => pure (.returned (.ok ()))
    | some allOk => pure (.returned (if allOk then .ok () else .error .checkFailed))

/-- From the bind to the end of the accept loop. -/
def listen (parseAddr : String → Option ListenAddr) (settings : Settings hex) :
    Start hmac prim width hex Ended := do
  let host ← bindHost hmac prim width settings
  let address := host ++ s!":{settings.port}"
  match parseAddr address with
  | none => fail hmac prim width (.invalidListenAddress address)
  | some addr => do
      match ← perform hmac prim width (.bind addr) with
      | .error source => fail hmac prim width (.bind addr source)
      | .ok localAddr => do
          let bound := localAddr.getD addr
          let limits ← perform hmac prim width .limits
          let maxConnections :=
            settings.effectiveMaxConnections width (softNofileLimit width limits)
          let host ← linkHost hmac prim width settings
          match settings.checks.started.linkSecretFor settings.config.primarySecret with
          | none => throw .panicked
          | some secret => do
              perform hmac prim width (.onListen bound (tgLink host bound.port secret))
              serve hmac prim width settings bound maxConnections

def runWithListen (parseAddr : String → Option ListenAddr)
    (outbound : Except String Outbound.OutboundConfig) (settings : Settings hex) :
    Start hmac prim width hex Ended :=
  match outbound with
  | .error reason => fail hmac prim width (.invalidOutbound reason)
  | .ok _ => do
      let settings ← fetchDomains hmac prim width settings
      match settings.config.validatePinnedUpstreams with
      | .error reason => fail hmac prim width (.invalidPin reason)
      | .ok () =>
          if settings.check && !settings.checks.checkListener then do
            match ← perform hmac prim width (.check settings) with
            | none => pure (.returned (.ok ()))
            | some outcome =>
                match outcome.val with
                | .error _ => throw .panicked
                | .ok allOk => pure (.returned (if allOk then .ok () else .error .checkFailed))
          else listen hmac prim width parseAddr settings

end Program

/-- The result of a run, however it was left. -/
def outcome : Except Ended Ended → Ended
  | .ok ended | .error ended => ended

/-- The exit status of `main`. -/
def exitCode : Ended → Nat
  | .returned (.ok ()) => 0
  | .returned (.error (.invalidOutbound _)) => 2
  | .returned (.error _) => 1
  | .panicked => 101

/-- What `main` itself writes to the standard error; the check has written its own report. -/
def printed : Ended → Option String
  | .returned (.ok ()) | .returned (.error .checkFailed) | .panicked => none
  | .returned (.error (.invalidOutbound reason)) =>
      some ("invalid outbound proxy config: " ++ reason)
  | .returned (.error error) => some error.message

/-- The text that `main` has for one of the errors is the message of that error. -/
theorem printed_eq_message {error : RunError} (hother : error ≠ .checkFailed) :
    printed (.returned (.error error)) = some error.message := by
  cases error with
  | checkFailed => exact (hother rfl).elim
  | invalidOutbound | invalidPin | invalidListenAddress | bind => rfl

/-! ## What comes before what -/

section Order

variable {hex : Codec} (hmac : Hmac) (prim : Primitives) (width : PointerWidth)
  (outbound : Except String Outbound.OutboundConfig) (settings : Settings hex)

/-- The settings after the download, if there is one. -/
def Fetched (done : Trace (startSig hmac prim width hex)) (fetched : Settings hex) : Prop :=
  (settings.defaultDomains = false ∧ fetched = settings) ∨
    ∃ outcome, ⟨.fetch, some outcome⟩ ∈ done ∧
      fetched = settings.extend ((DefaultDomains.fetchDefaultDomains outcome).map String.ofList)

/-- Nothing is wrong with the configuration, as it is after the download. -/
structure Ready (done : Trace (startSig hmac prim width hex)) (fetched : Settings hex) : Prop where
  outbound : ∃ config, outbound = .ok config
  download : Fetched hmac prim width settings done fetched
  pins : fetched.config.validatePinnedUpstreams = .ok ()

/-- The host that a link names, where every look at the network shows the same. -/
def advertised (lanIp : Option String) : String :=
  match settings.linkIp, settings.host with
  | some ip, _ => ip
  | none, some host => if isLocal host then lanIp.getD host else host
  | none, none => lanIp.getD "127.0.0.1"

/-- What has to be behind a call. -/
def Gate (done : Trace (startSig hmac prim width hex)) : Op hex → Prop
  | .fetch => (∃ config, outbound = .ok config) ∧ settings.defaultDomains = true ∧ done = []
  | .check fetched => Ready hmac prim width outbound settings done fetched ∧
      fetched.check = true ∧ fetched.checks.checkListener = false
  | .detectLanIp | .limits => ∃ fetched, Ready hmac prim width outbound settings done fetched
  | .bind _ => ∃ fetched, Ready hmac prim width outbound settings done fetched ∧
      ¬ (fetched.check = true ∧ fetched.checks.checkListener = false)
  | .onListen bound link =>
      (∃ addr localAddr, ⟨.bind addr, .ok localAddr⟩ ∈ done ∧ bound = localAddr.getD addr) ∧
      (∀ addr link, ⟨.onListen addr link, ()⟩ ∉ done) ∧
      ∃ host secret, link = tgLink host bound.port secret ∧
        settings.checks.started.linkSecretFor settings.config.primarySecret = some secret ∧
        ∀ lanIp, (∀ reply, ⟨.detectLanIp, reply⟩ ∈ done → reply = lanIp) →
          host = advertised settings lanIp
  | .spawnWarmup => ∃ bound link, ⟨.onListen bound link, ()⟩ ∈ done
  | .spawnCheck bound => settings.check = true ∧ ∃ link, ⟨.onListen bound link, ()⟩ ∈ done
  | .serve fetched bound maxConnections =>
      Ready hmac prim width outbound settings done fetched ∧
      (∃ link, ⟨.onListen bound link, ()⟩ ∈ done) ∧ maxConnections ≤ maxPermits width ∧
      ∃ limits, ⟨.limits, limits⟩ ∈ done ∧ maxConnections =
        fetched.effectiveMaxConnections width (softNofileLimit width limits)

/-- The check passed. -/
def Passed : Event (startSig hmac prim width hex) → Prop
  | ⟨.check _, some outcome⟩ => outcome.val = .ok true
  | ⟨.serve _ _ _, served⟩ => served.val = some true
  | _ => False

/-- The step was left for the shutdown. -/
def Interrupted : Event (startSig hmac prim width hex) → Prop
  | ⟨.fetch, none⟩ | ⟨.check _, none⟩ => True
  | ⟨.serve _ _ _, served⟩ => served.val = none
  | _ => False

/-- What the exit status tells of the run. -/
def Exit (done : Trace (startSig hmac prim width hex)) (ended : Ended) : Prop :=
  (exitCode ended = 0 ↔
    (settings.check = true ∧ ∃ event ∈ done, Passed hmac prim width event) ∨
      ∃ event ∈ done, Interrupted hmac prim width event) ∧
  (exitCode ended = 2 ↔ ∃ reason, outbound = .error reason) ∧
  ((∃ reason, outbound = .error reason) → done = [])

end Order

section Guards

variable {hex : Codec} {hmac : Hmac} {prim : Primitives} {width : PointerWidth}
  {outbound : Except String Outbound.OutboundConfig} {settings fetched : Settings hex}
  {done : Trace (startSig hmac prim width hex)} {event : Event (startSig hmac prim width hex)}
  {α : Type}

variable (hmac prim width) in
/-- The check has not passed, and no step was left for the shutdown. -/
def Quiet (done : Trace (startSig hmac prim width hex)) : Prop :=
  ∀ event ∈ done, ¬ (Passed hmac prim width event ∨ Interrupted hmac prim width event)

theorem Quiet.concat (hquiet : Quiet hmac prim width done)
    (hevent : ¬ (Passed hmac prim width event ∨ Interrupted hmac prim width event)) :
    Quiet hmac prim width (done ++ [event]) :=
  List.forall_mem_append.mpr ⟨hquiet, List.forall_mem_singleton.mpr hevent⟩

theorem Ready.concat (hready : Ready hmac prim width outbound settings done fetched)
    (event : Event (startSig hmac prim width hex)) :
    Ready hmac prim width outbound settings (done ++ [event]) fetched := by
  refine ⟨hready.outbound, ?_, hready.pins⟩
  rcases hready.download with hsame | ⟨outcome, hmem, hfetched⟩
  · exact .inl hsame
  · exact .inr ⟨outcome, List.mem_append_left _ hmem, hfetched⟩

/-- A run that ends without success and without a shutdown. -/
theorem exit_of_quiet {ended : Ended} (hquiet : Quiet hmac prim width done)
    (houtbound : ∃ config, outbound = .ok config) (hfailed : exitCode ended ≠ 0)
    (hother : exitCode ended ≠ 2) : Exit hmac prim width outbound settings done ended := by
  obtain ⟨config, rfl⟩ := houtbound
  refine ⟨⟨fun hzero => absurd hzero hfailed, ?_⟩, ⟨fun htwo => absurd htwo hother, ?_⟩, ?_⟩
  · rintro (⟨-, event, hmem, hevent⟩ | ⟨event, hmem, hevent⟩)
    · exact absurd (.inl hevent) (hquiet event hmem)
    · exact absurd (.inr hevent) (hquiet event hmem)
  · rintro ⟨_, ⟨⟩⟩
  · rintro ⟨_, ⟨⟩⟩

theorem exit_of_event (houtbound : ∃ config, outbound = .ok config)
    (hevent : settings.check = true ∧ Passed hmac prim width event ∨
      Interrupted hmac prim width event) :
    Exit hmac prim width outbound settings (done ++ [event]) (.returned (.ok ())) := by
  obtain ⟨config, rfl⟩ := houtbound
  have hlast : event ∈ done ++ [event] := List.mem_append_right _ List.mem_cons_self
  refine ⟨⟨fun _ => ?_, fun _ => rfl⟩, ⟨nofun, ?_⟩, ?_⟩
  · exact hevent.imp (fun hpassed => ⟨hpassed.1, event, hlast, hpassed.2⟩)
      fun hleft => ⟨event, hlast, hleft⟩
  · rintro ⟨_, ⟨⟩⟩
  · rintro ⟨_, ⟨⟩⟩

variable (hmac prim width outbound settings) in
/-- Every call keeps the order, and the end tells what happened. -/
abbrev Orderly (returns : Trace (startSig hmac prim width hex) → α → Prop)
    (done : Trace (startSig hmac prim width hex)) (start : Start hmac prim width hex α) : Prop :=
  start.run.Guards (Gate hmac prim width outbound settings)
    (Either (Exit hmac prim width outbound settings) returns) done

theorem call_orderly {op : Op hex} {returns : Trace (startSig hmac prim width hex) → α → Prop}
    {next : Reply hmac prim width op → Start hmac prim width hex α}
    (hgate : Gate hmac prim width outbound settings done op)
    (hnext : ∀ reply, Orderly hmac prim width outbound settings returns (done ++ [⟨op, reply⟩])
      (next reply)) :
    Orderly hmac prim width outbound settings returns done (perform hmac prim width op >>= next) :=
  ⟨hgate, hnext⟩

theorem pure_orderly {returns : Trace (startSig hmac prim width hex) → α → Prop} {value : α}
    (hreturns : returns done value) :
    Orderly hmac prim width outbound settings returns done (pure value) := hreturns

theorem throw_orderly {returns : Trace (startSig hmac prim width hex) → α → Prop} {ended : Ended}
    (hexit : Exit hmac prim width outbound settings done ended) :
    Orderly hmac prim width outbound settings returns done (throw ended) := hexit

variable (hmac prim width outbound settings fetched) in
/-- Where the listener is set up. -/
structure Opening (done : Trace (startSig hmac prim width hex)) : Prop where
  ready : Ready hmac prim width outbound settings done fetched
  quiet : Quiet hmac prim width done
  unannounced : ∀ addr link, ⟨.onListen addr link, ()⟩ ∉ done

theorem Opening.concat (hopening : Opening hmac prim width outbound settings fetched done)
    (hquiet : ¬ (Passed hmac prim width event ∨ Interrupted hmac prim width event))
    (hother : ∀ addr link, event ≠ ⟨.onListen addr link, ()⟩) :
    Opening hmac prim width outbound settings fetched (done ++ [event]) := by
  refine ⟨hopening.ready.concat event, hopening.quiet.concat hquiet, ?_⟩
  intro addr link hmem
  rcases List.mem_append.mp hmem with hmem | hmem
  · exact hopening.unannounced addr link hmem
  · exact hother addr link (List.mem_singleton.mp hmem).symm

variable (hmac prim width) in
/-- Every look at the network has shown the same. -/
def Stable (done : Trace (startSig hmac prim width hex)) (lanIp : Option String) : Prop :=
  ∀ reply, ⟨.detectLanIp, reply⟩ ∈ done → reply = lanIp

def hostOf (settings : Settings hex) (lanIp : Option String) : String :=
  settings.host.getD (if lanIp.isSome then "0.0.0.0" else "127.0.0.1")

theorem bindHost_orderly (hopening : Opening hmac prim width outbound settings fetched done) :
    Orderly hmac prim width outbound settings
      (fun later host => Opening hmac prim width outbound settings fetched later ∧
        done <+: later ∧ ∀ lanIp, Stable hmac prim width later lanIp → host = hostOf fetched lanIp)
      done (bindHost hmac prim width fetched) := by
  unfold bindHost
  cases hhost : fetched.host with
  | some host =>
      refine pure_orderly ⟨hopening, List.prefix_rfl, fun lanIp _ => ?_⟩
      rw [hostOf, hhost]
      rfl
  | none =>
      refine call_orderly ⟨fetched, hopening.ready⟩ fun reply => ?_
      refine pure_orderly ⟨hopening.concat (by simp [Passed, Interrupted]) nofun,
        List.prefix_append _ _, fun lanIp hstable => ?_⟩
      obtain rfl := hstable reply (List.mem_append_right _ List.mem_cons_self)
      rw [hostOf, hhost]
      rfl

theorem linkHost_orderly (hopening : Opening hmac prim width outbound settings fetched done) :
    Orderly hmac prim width outbound settings
      (fun later host => Opening hmac prim width outbound settings fetched later ∧
        done <+: later ∧
        ∀ lanIp, Stable hmac prim width later lanIp → host = advertised fetched lanIp)
      done (linkHost hmac prim width fetched) := by
  unfold linkHost
  cases hlink : fetched.linkIp with
  | some ip =>
      refine pure_orderly ⟨hopening, List.prefix_rfl, fun lanIp _ => ?_⟩
      simp only [advertised, hlink]
  | none =>
      refine .bindExcept (bindHost_orderly hopening) ?_
      rintro later host ⟨hopening, hlater, hhost⟩
      split
      next hlocal =>
        refine call_orderly ⟨fetched, hopening.ready⟩ fun reply => ?_
        refine pure_orderly ⟨hopening.concat (by simp [Passed, Interrupted]) nofun,
          hlater.trans (List.prefix_append _ _), fun lanIp hstable => ?_⟩
        obtain rfl := hstable reply (List.mem_append_right _ List.mem_cons_self)
        obtain rfl := hhost reply fun other hmem => hstable other (List.mem_append_left _ hmem)
        cases hgiven : fetched.host with
        | none => cases reply <;> simp [advertised, hostOf, hlink, hgiven]
        | some given =>
            rw [hostOf, hgiven, Option.getD_some] at hlocal
            simp [advertised, hostOf, hlink, hgiven, hlocal]
      next hremote =>
        refine pure_orderly ⟨hopening, hlater, fun lanIp hstable => ?_⟩
        obtain rfl := hhost lanIp hstable
        cases hgiven : fetched.host with
        | none =>
            rw [hostOf, hgiven, Option.getD_none] at hremote
            cases lanIp with
            | none => exact absurd (by decide) hremote
            | some ip => exact absurd (by simp [isLocal]) hremote
        | some given =>
            rw [hostOf, hgiven, Option.getD_some] at hremote
            simp [advertised, hostOf, hlink, hgiven, hremote]

/-- The domains that were downloaded change neither the secret nor the host of the link. -/
theorem Fetched.link (hfetched : Fetched hmac prim width settings done fetched) :
    fetched.checks.started.linkSecretFor fetched.config.primarySecret =
        settings.checks.started.linkSecretFor settings.config.primarySecret ∧
      (∀ lanIp, advertised fetched lanIp = advertised settings lanIp) ∧
      fetched.check = settings.check ∧
      fetched.checks.checkListener = settings.checks.checkListener := by
  rcases hfetched with ⟨-, rfl⟩ | ⟨outcome, -, rfl⟩
  · exact ⟨rfl, fun _ => rfl, rfl, rfl⟩
  · exact ⟨rfl, fun _ => rfl, rfl, rfl⟩

variable (hmac prim width outbound settings fetched) in
/-- Where the listener has been announced. -/
structure Announced (bound : ListenAddr) (maxConnections : Nat)
    (done : Trace (startSig hmac prim width hex)) : Prop where
  ready : Ready hmac prim width outbound settings done fetched
  quiet : Quiet hmac prim width done
  announced : ∃ link, ⟨.onListen bound link, ()⟩ ∈ done
  budget : ∃ limits, ⟨.limits, limits⟩ ∈ done ∧
    maxConnections = fetched.effectiveMaxConnections width (softNofileLimit width limits)

theorem Announced.concat {bound : ListenAddr} {maxConnections : Nat}
    (hannounced : Announced hmac prim width outbound settings fetched bound maxConnections done)
    (hquiet : ¬ (Passed hmac prim width event ∨ Interrupted hmac prim width event)) :
    Announced hmac prim width outbound settings fetched bound maxConnections (done ++ [event]) := by
  obtain ⟨link, hlink⟩ := hannounced.announced
  obtain ⟨limits, hlimits, hmax⟩ := hannounced.budget
  exact ⟨hannounced.ready.concat event, hannounced.quiet.concat hquiet,
    ⟨link, List.mem_append_left _ hlink⟩, limits, List.mem_append_left _ hlimits, hmax⟩

theorem loop_of_leave {state next : State} {verdict : Option Bool}
    (hleave : state.leave verdict = some next) : next.loop = .stopped verdict := by
  unfold State.leave at hleave
  split at hleave <;> cases hleave
  · rfl
  · rfl

/-- Without a check there is no verdict to stop for. -/
theorem verdict_of_step {config : Config} {state next : State} {label : Label} {allOk : Bool}
    (hstep : Server.step config width false state label = some next)
    (hstate : state.loop ≠ .stopped (some allOk)) : next.loop ≠ .stopped (some allOk) := by
  cases label with
  | shutdown =>
      rw [loop_of_leave hstep]
      intro hloop
      cases hloop
  | verdict other => cases hstep
  | acquire | accept | acceptFailed rawOsError | wake =>
      simp only [Server.step] at hstep
      split at hstep <;> cases hstep
      intro hloop
      cases hloop
  | dial index | disconnect index | finish index =>
      simp only [Server.step] at hstep
      split at hstep <;> cases hstep
      exact hstate
  | get index key targetIp allowRefill now closed | background label =>
      simp only [Server.step] at hstep
      split at hstep
      next =>
        obtain ⟨pool, -, rfl⟩ := Option.map_eq_some_iff.mp hstep
        exact hstate
      next => cases hstep

theorem check_of_served {bound : ListenAddr} {maxConnections : Nat} {allOk : Bool}
    (served : Served hmac prim width settings bound maxConnections)
    (hverdict : served.val = some allOk) : settings.check = true := by
  obtain ⟨⟨labels, state, hrun, hloop⟩, -⟩ := served.property
  by_contra hcheck
  rw [Bool.not_eq_true] at hcheck
  rw [hcheck] at hrun
  refine @System.runFrom_invariant _ _ (serverSystem settings.config width false maxConnections)
    (fun state => state.loop ≠ .stopped (some allOk)) ?_ labels _ state ?_ hrun
    (hloop.trans (congrArg _ hverdict))
  · intro state label next hstep hstate
    exact verdict_of_step hstep hstate
  · exact Loop.noConfusion

theorem serve_orderly {bound : ListenAddr} {maxConnections : Nat}
    (hannounced : Announced hmac prim width outbound settings fetched bound maxConnections done) :
    Orderly hmac prim width outbound settings (Exit hmac prim width outbound settings) done
      (serve hmac prim width fetched bound maxConnections) := by
  obtain ⟨-, -, hcheck, -⟩ := hannounced.ready.download.link
  unfold serve
  refine call_orderly (hannounced.announced.imp' (fun _ => bound) fun link hlink => ⟨link, hlink⟩)
    fun _ => ?_
  have hwarm : Announced hmac prim width outbound settings fetched bound maxConnections
      (done ++ [⟨.spawnWarmup, ()⟩]) := hannounced.concat (by simp [Passed, Interrupted])
  have hspawned : Orderly hmac prim width outbound settings
      (fun later _ =>
        Announced hmac prim width outbound settings fetched bound maxConnections later)
      (done ++ [⟨.spawnWarmup, ()⟩])
      (spawnListenerCheck hmac prim width fetched bound) := by
    unfold spawnListenerCheck
    split
    next hchecks =>
      exact ⟨⟨hcheck.symm.trans hchecks, hwarm.announced⟩, fun _ =>
        hwarm.concat (by simp [Passed, Interrupted])⟩
    next => exact pure_orderly hwarm
  refine .bindExcept hspawned ?_
  intro done _ hannounced
  split
  next =>
    exact throw_orderly (exit_of_quiet hannounced.quiet hannounced.ready.outbound (by decide)
      (by decide))
  next hpermits =>
    refine call_orderly ⟨hannounced.ready, hannounced.announced, Nat.le_of_not_lt hpermits,
      hannounced.budget⟩ fun served => ?_
    split
    next hshutdown => exact pure_orderly (exit_of_event hannounced.ready.outbound (.inr hshutdown))
    next allOk hverdict =>
      cases allOk with
      | true =>
          have hchecked := hcheck.symm.trans (check_of_served served hverdict)
          exact pure_orderly (exit_of_event hannounced.ready.outbound (.inl ⟨hchecked, hverdict⟩))
      | false =>
          refine pure_orderly (exit_of_quiet (hannounced.quiet.concat ?_) hannounced.ready.outbound
            (by decide) (by decide))
          simp [Passed, Interrupted, hverdict]

theorem listen_orderly {parseAddr : String → Option ListenAddr}
    (hopening : Opening hmac prim width outbound settings fetched done)
    (hserves : ¬ (fetched.check = true ∧ fetched.checks.checkListener = false)) :
    Orderly hmac prim width outbound settings (Exit hmac prim width outbound settings) done
      (listen hmac prim width parseAddr fetched) := by
  refine .bindExcept (bindHost_orderly hopening) ?_
  rintro done host ⟨hopening, -, -⟩
  dsimp only
  split
  next =>
    exact throw_orderly (exit_of_quiet hopening.quiet hopening.ready.outbound (by simp [exitCode])
      (by simp [exitCode]))
  next addr _ =>
    refine call_orderly ⟨fetched, hopening.ready, hserves⟩ fun reply => ?_
    have hbound : Opening hmac prim width outbound settings fetched
        (done ++ [⟨.bind addr, reply⟩]) := hopening.concat (by simp [Passed, Interrupted]) nofun
    cases reply with
    | error source =>
        exact throw_orderly (exit_of_quiet hbound.quiet hbound.ready.outbound (by simp [exitCode])
          (by simp [exitCode]))
    | ok localAddr =>
        refine call_orderly ⟨fetched, hbound.ready⟩ fun limits => ?_
        refine .bindExcept
          (linkHost_orderly (hbound.concat (by simp [Passed, Interrupted]) nofun)) ?_
        rintro later host ⟨hopening, hlater, hhost⟩
        obtain ⟨hsecret, hadvertised, -, -⟩ := hopening.ready.download.link
        split
        next =>
          exact throw_orderly (exit_of_quiet hopening.quiet hopening.ready.outbound (by decide)
            (by decide))
        next secret hlink =>
          refine call_orderly ⟨⟨addr, localAddr, ?_, rfl⟩, hopening.unannounced, host, secret, rfl,
            hsecret.symm.trans hlink, ?_⟩ fun _ => ?_
          · exact hlater.subset (by simp)
          · intro lanIp hstable
            exact (hhost lanIp hstable).trans (hadvertised lanIp)
          · refine serve_orderly ⟨hopening.ready.concat _, hopening.quiet.concat ?_,
              ⟨_, List.mem_append_right _ List.mem_cons_self⟩, limits, ?_, rfl⟩
            · simp [Passed, Interrupted]
            · exact List.mem_append_left _ (hlater.subset (by simp))

theorem fetchDomains_orderly (houtbound : ∃ config, outbound = .ok config) :
    Orderly hmac prim width outbound settings
      (fun done fetched =>
        Fetched hmac prim width settings done fetched ∧ Quiet hmac prim width done ∧
        ∀ addr link, ⟨.onListen addr link, ()⟩ ∉ done)
      [] (fetchDomains hmac prim width settings) := by
  unfold fetchDomains
  split
  next hdefaults =>
    refine call_orderly ⟨houtbound, hdefaults, rfl⟩ fun reply => ?_
    cases reply with
    | none =>
        have hleft : Interrupted hmac prim width
            (⟨.fetch, none⟩ : Event (startSig hmac prim width hex)) := trivial
        exact throw_orderly (exit_of_event houtbound (.inr hleft))
    | some outcome =>
        refine pure_orderly ⟨.inr ⟨outcome, List.mem_cons_self, rfl⟩, ?_, by simp⟩
        simp [Quiet, Passed, Interrupted]
  next hdefaults =>
    exact pure_orderly ⟨.inl ⟨Bool.eq_false_iff.mpr hdefaults, rfl⟩,
      fun _ hmem => absurd hmem List.not_mem_nil, fun _ _ => List.not_mem_nil⟩

theorem runWithListen_orderly (parseAddr : String → Option ListenAddr) :
    Orderly hmac prim width outbound settings (Exit hmac prim width outbound settings) []
      (runWithListen hmac prim width parseAddr outbound settings) := by
  unfold runWithListen
  cases outbound with
  | error reason =>
      refine throw_orderly ⟨⟨nofun, ?_⟩, ⟨fun _ => ⟨reason, rfl⟩, fun _ => rfl⟩, fun _ => rfl⟩
      simp
  | ok config =>
      have houtbound : ∃ other, (.ok config : Except String Outbound.OutboundConfig) = .ok other :=
        ⟨config, rfl⟩
      refine .bindExcept (fetchDomains_orderly houtbound) ?_
      rintro done fetched ⟨hfetched, hquiet, hunannounced⟩
      split
      next =>
        exact throw_orderly (exit_of_quiet hquiet houtbound (by simp [exitCode])
          (by simp [exitCode]))
      next hpins =>
        have hready : Ready hmac prim width (.ok config) settings done fetched :=
          ⟨houtbound, hfetched, hpins⟩
        split
        next hchecks =>
          rw [Bool.and_eq_true, Bool.not_eq_true'] at hchecks
          refine call_orderly ⟨hready, hchecks⟩ fun reply => ?_
          cases reply with
          | none =>
              have hleft : Interrupted hmac prim width
                  (⟨.check fetched, none⟩ : Event (startSig hmac prim width hex)) := trivial
              exact pure_orderly (exit_of_event houtbound (.inr hleft))
          | some outcome =>
              have hpassed : Passed hmac prim width
                  (⟨.check fetched, some outcome⟩ : Event (startSig hmac prim width hex)) ↔
                    outcome.val = .ok true := Iff.rfl
              dsimp only
              split
              next hfault =>
                refine throw_orderly (exit_of_quiet (hquiet.concat ?_) houtbound (by decide)
                  (by decide))
                rw [hpassed, hfault]
                simp [Interrupted]
              next allOk hdone =>
                cases allOk with
                | true =>
                    have hchecked := hfetched.link.2.2.1.symm.trans hchecks.1
                    exact pure_orderly (exit_of_event houtbound
                      (.inl ⟨hchecked, hpassed.mpr hdone⟩))
                | false =>
                    refine pure_orderly (exit_of_quiet (hquiet.concat ?_) houtbound (by decide)
                      (by decide))
                    rw [hpassed, hdone]
                    simp [Interrupted]
        next hserves =>
          rw [Bool.and_eq_true, Bool.not_eq_true'] at hserves
          exact listen_orderly ⟨hready, hquiet, hunannounced⟩ hserves

end Guards

/-! ## Results -/

/-- In every run, also in one that never ends, each step of the server comes only after what
it depends on: nothing goes out with an outbound configuration that does not parse; the socket
is bound only when the pins have passed against the list as downloaded, and not at all for a
check without a listener; the link is announced once, with the port that was bound, the primary
secret and the host that the network shows; and clients are accepted after that, as many as
the descriptor limit leaves room for. -/
theorem startup_order {hex : Codec} (hmac : Hmac) (prim : Primitives) (width : PointerWidth)
    (parseAddr : String → Option ListenAddr) (outbound : Except String Outbound.OutboundConfig)
    (settings : Settings hex) {trace : Trace (startSig hmac prim width hex)} {op : Op hex}
    {next : Reply hmac prim width op → Program (startSig hmac prim width hex) (Except Ended Ended)}
    (hreaches : Reaches (runWithListen hmac prim width parseAddr outbound settings).run
      trace (.call op next)) :
    Gate hmac prim width outbound settings trace op :=
  (runWithListen_orderly parseAddr).allowed_of_reaches hreaches

/-- A listener on the loopback interface. -/
def localSettings : Settings Foundation.Hex.standard where
  checks :=
    { started := posingStarted, proxies := [], cfIps := false, checkListener := false
      handshakeTimeout := 10, tcpFallbackTimeout := 10 }
  defaultDomains := false
  check := false
  implied := id
  host := some "127.0.0.1"
  port := 1443
  linkIp := none
  maxConnections := some 10

def localAddr : ListenAddr := ⟨"127.0.0.1", false, false, 1443⟩

theorem startup_order_local :
    let hmac : Hmac := fun _ _ => List.Vector.replicate 32 0
    ∃ trace next,
      Reaches (runWithListen hmac samplePrimitives .bits64 (fun _ => some localAddr)
        (.ok ⟨none, none⟩) localSettings).run trace
          (.call (.serve localSettings localAddr 10) next) ∧
      (∃ link, ⟨.onListen localAddr link, ()⟩ ∈ trace) ∧ 10 ≤ maxPermits .bits64 := by
  intro hmac
  let sig := startSig hmac samplePrimitives .bits64 Foundation.Hex.standard
  have hreaches : ∃ secret next,
      Reaches (runWithListen hmac samplePrimitives .bits64 (fun _ => some localAddr)
        (.ok ⟨none, none⟩) localSettings).run
        [⟨.bind localAddr, .ok none⟩, ⟨.limits, none⟩, ⟨.detectLanIp, none⟩,
          ⟨.onListen localAddr (tgLink "127.0.0.1" 1443 secret), ()⟩, ⟨.spawnWarmup, ()⟩]
        (.call (.serve localSettings localAddr 10) next) := by
    apply Exists.intro
    apply Exists.intro
    refine @Reaches.call sig _ (.bind localAddr) _ (.ok none) _ _ ?_
    refine @Reaches.call sig _ .limits _ none _ _ ?_
    refine @Reaches.call sig _ .detectLanIp _ none _ _ ?_
    refine @Reaches.call sig _ (.onListen localAddr _) _ () _ _ ?_
    exact @Reaches.call sig _ .spawnWarmup _ () _ _ (.refl _)
  obtain ⟨secret, next, hreaches⟩ := hreaches
  obtain ⟨-, hannounced, hpermits, -⟩ := startup_order hmac samplePrimitives .bits64
    (fun _ => some localAddr) (.ok ⟨none, none⟩) localSettings hreaches
  exact ⟨_, next, hreaches, hannounced, hpermits⟩

/-- The exit status tells how the run ended: `0` exactly when a check was asked for and passed,
or when a step was left for the shutdown; `2` exactly when the outbound configuration does not
parse, and then nothing was done. What a run failed with, other than the check, is printed. -/
theorem exit_status {hex : Codec} (hmac : Hmac) (prim : Primitives) (width : PointerWidth)
    (parseAddr : String → Option ListenAddr) (outbound : Except String Outbound.OutboundConfig)
    (settings : Settings hex) {trace : Trace (startSig hmac prim width hex)}
    {result : Except Ended Ended}
    (hrun : Runs (runWithListen hmac prim width parseAddr outbound settings).run trace result) :
    Exit hmac prim width outbound settings trace (outcome result) ∧
      ∀ error, outcome result = .returned (.error error) → error ≠ .checkFailed →
        printed (outcome result) = some error.message := by
  refine ⟨?_, fun error hresult hother => hresult ▸ printed_eq_message hother⟩
  have hexit := (@runWithListen_orderly _ hmac prim width outbound settings parseAddr).of_runs hrun
  cases result with
  | error ended => exact hexit
  | ok ended => exact hexit

/-- A check of one domain. -/
def checkedSettings : Settings Foundation.Hex.standard :=
  let checked := localSettings.extend ["a.example"]
  { checked with check := true, implied := fun _ => rfl }

theorem exit_status_checked :
    let hmac : Hmac := fun _ _ => List.Vector.replicate 32 0
    ∃ trace result,
      Runs (runWithListen hmac samplePrimitives .bits64 (fun _ => none) (.ok ⟨none, none⟩)
        checkedSettings).run trace result ∧
      exitCode (outcome result) = 0 ∧
      ∃ event ∈ trace, Passed hmac samplePrimitives .bits64 event := by
  intro hmac
  let sig := startSig hmac samplePrimitives .bits64 Foundation.Hex.standard
  have hcheck : Runs (runCheckWithOutbound hmac samplePrimitives checkedSettings.checks none)
      [⟨.connectCf "a.example", true⟩] (.ok true) :=
    @Runs.call Check.probeSig _ (.connectCf "a.example") _ true _ _ (.pure _)
  let passed : Checked hmac samplePrimitives checkedSettings none := ⟨.ok true, _, hcheck⟩
  have hrun : Runs (runWithListen hmac samplePrimitives .bits64 (fun _ => none) (.ok ⟨none, none⟩)
      checkedSettings).run [⟨.check checkedSettings, some passed⟩] (.ok (.returned (.ok ()))) :=
    @Runs.call sig _ (.check checkedSettings) _ (some passed) _ _ (.pure _)
  obtain ⟨⟨hzero, -, -⟩, -⟩ := exit_status hmac samplePrimitives .bits64 (fun _ => none)
    (.ok ⟨none, none⟩) checkedSettings hrun
  have hpassed : ∃ event ∈ ([⟨.check checkedSettings, some passed⟩] : Trace sig),
      Passed hmac samplePrimitives .bits64 event := ⟨_, List.mem_cons_self, rfl⟩
  exact ⟨_, _, hrun, hzero.mpr (.inl ⟨rfl, hpassed⟩), hpassed⟩

end TgWsProxy.Server
