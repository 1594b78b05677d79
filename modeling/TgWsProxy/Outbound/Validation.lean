import TgWsProxy.Outbound.Sources

/-!
# A checked list never panics

The check and the parser take an entry apart with different calls. Here is what an entry
consists of, whichever of the two looks at it, and that nothing which the check lets
through reaches one of the parser's `expect`s.
-/

namespace TgWsProxy.Outbound

open Foundation

/-! ## Results without a panic -/

/-- An `Ok` or an `Err`. -/
def Returns {α : Type} (result : Except Stop α) : Prop := ∀ reason, result ≠ .error (.panic reason)

namespace Returns

variable {α β : Type}

theorem ok (value : α) : Returns (.ok value) := nofun

theorem pure (value : α) : Returns (Pure.pure value) := nofun

theorem err (message : String) : Returns (.error (.err message) : Except Stop α) := nofun

theorem bind {result : Except Stop α} {next : α → Except Stop β} (hresult : Returns result)
    (hnext : ∀ value, result = .ok value → Returns (next value)) : Returns (result >>= next) := by
  cases result with
  | ok value => exact hnext value rfl
  | error stop =>
      intro reason hpanic
      cases hpanic
      exact hresult reason rfl

theorem map {result : Except Stop α} (hresult : Returns result) (f : α → β) :
    Returns (result.map f) := by
  cases result with
  | ok value => nofun
  | error stop =>
      intro reason hpanic
      cases hpanic
      exact hresult reason rfl

end Returns

theorem ok_bind {α β : Type} (value : α) (next : α → Except Stop β) :
    (Except.ok value >>= next) = next value := rfl

/-! ## The parts of an entry -/

/-- The text of a port behind a host. -/
def portText : Option Text → Text
  | none => []
  | some digits => ':' :: digits

/-- An entry that is a host, with brackets or without, and maybe a port. -/
inductive Carries : Text → Text → Option Text → Prop
  | bracketed {host : Text} {port : Option Text} (hhost : ']' ∉ host) :
      Carries ('[' :: (host ++ ']' :: portText port)) host port
  | plain {host : Text} {port : Option Text} (hhost : ':' ∉ host) (hopen : host.head? ≠ some '[')
      (hport : ∀ digits, port = some digits → ':' ∉ digits) :
      Carries (host ++ portText port) host port

/-- The port that the parser makes of the text behind a host. -/
def portNumber (port : Option Text) : Nat := (port.bind parseU16).getD 0

section Brackets

variable {inner rest : Text}

theorem hostAndPort_bracketed (hinner : ']' ∉ inner) :
    hostAndPort ('[' :: (inner ++ ']' :: rest)) =
      (bracketedPort rest).map fun port => (inner, port) := by
  have hopen : ['['].isPrefixOf? ('[' :: (inner ++ ']' :: rest)) =
      some (inner ++ ']' :: rest) := rfl
  have hfront : sliceTo (inner ++ ']' :: rest) inner.byteLength = .ok inner := by
    unfold sliceTo
    rw [Text.splitAtByte_append]
    rfl
  have hback : sliceFrom (inner ++ ']' :: rest) (inner.byteLength + 1) = .ok rest := by
    unfold sliceFrom
    rw [Text.splitAtByte_append_cons (by decide)]
    rfl
  simp only [hostAndPort, hopen, Text.find_append_cons hinner, expect, ok_bind, hfront, hback]
  cases bracketedPort rest with
  | ok port => rfl
  | error stop => rfl

theorem validateBracketed_eq (reader : AddressReader) (hinner : ']' ∉ inner) :
    validateBracketedIpv6NoProxy reader ('[' :: (inner ++ ']' :: rest)) =
      if (reader.ipv6Addr inner).isSome then validateBracketedPort rest
      else .error invalidBracketed := by
  have hfind : Text.find ']' ('[' :: (inner ++ ']' :: rest)) =
      some (Text.byteLength ('[' :: inner)) :=
    @Text.find_append_cons ']' ('[' :: inner) rest (by simp [hinner])
  have hslice : Text.slice ('[' :: (inner ++ ']' :: rest)) 1 (Text.byteLength ('[' :: inner)) =
      some inner := by
    have hfront := Text.splitAtByte_append ('[' :: inner) (']' :: rest)
    have hinside : Text.splitAtByte ('[' :: inner) 1 = some (['['], inner) :=
      Text.splitAtByte_append ['['] inner
    rw [List.cons_append] at hfront
    simp only [Text.slice, hfront, Option.bind_eq_bind, Option.bind_some, hinside]
    rfl
  have hback : sliceFrom ('[' :: (inner ++ ']' :: rest)) (Text.byteLength ('[' :: inner) + 1) =
      .ok rest := by
    unfold sliceFrom
    rw [← List.cons_append, Text.splitAtByte_append_cons (by decide)]
    rfl
  simp only [validateBracketedIpv6NoProxy, hfind, hslice, expect, ok_bind]
  cases reader.ipv6Addr inner with
  | none => rfl
  | some bits =>
      rw [hback]
      rfl

theorem exists_closing {entry : Text} (hopen : ['['].isPrefixOf entry = true)
    (hclose : ']' ∈ entry) : ∃ inner rest, ']' ∉ inner ∧ entry = '[' :: (inner ++ ']' :: rest) := by
  obtain ⟨tail, rfl⟩ := List.isPrefixOf_iff_prefix.mp hopen
  cases hfind : Text.find ']' tail with
  | none =>
      have hnot := Text.find_eq_none_iff.mp hfind
      simp [hnot] at hclose
  | some offset =>
      obtain ⟨inner, rest, rfl, hinner, -⟩ := Text.find_eq_some hfind
      exact ⟨inner, rest, hinner, rfl⟩

end Brackets

/-! ## What the check lets through -/

section Accepted

variable {reader : AddressReader} {entry : Text}

theorem parseU16_of_validateNoProxyPort {digits : Text}
    (hport : validateNoProxyPort digits = .ok ()) : ∃ number, parseU16 digits = some number := by
  unfold validateNoProxyPort at hport
  split at hport
  next => cases hport
  next hvalid =>
    simp only [Bool.or_eq_true, not_or, Bool.not_eq_true, Option.isNone_eq_false_iff] at hvalid
    exact Option.isSome_iff_exists.mp hvalid.2

theorem carries_of_bracketed (hopen : ['['].isPrefixOf entry = true)
    (hvalid : validateBracketedIpv6NoProxy reader entry = .ok ()) :
    ∃ host port, Carries entry host port ∧
      ∀ digits, port = some digits → ∃ number, parseU16 digits = some number := by
  by_cases hclose : ']' ∈ entry
  · obtain ⟨inner, rest, hinner, rfl⟩ := exists_closing hopen hclose
    rw [validateBracketed_eq reader hinner] at hvalid
    split at hvalid
    next =>
      unfold validateBracketedPort at hvalid
      split at hvalid
      next hempty =>
        obtain rfl := List.isEmpty_iff.mp hempty
        exact ⟨inner, none, @Carries.bracketed inner none hinner, nofun⟩
      next =>
        split at hvalid
        next digits hdigits =>
          obtain rfl := List.isPrefixOf?_eq_some_iff_append_eq.mp hdigits
          refine ⟨inner, some digits, @Carries.bracketed inner (some digits) hinner, ?_⟩
          intro other hother
          cases hother
          exact parseU16_of_validateNoProxyPort hvalid
        next => cases hvalid
    next => cases hvalid
  · unfold validateBracketedIpv6NoProxy at hvalid
    rw [Text.find_eq_none_iff.mpr hclose] at hvalid
    cases hvalid

theorem head?_ne_of_not_isPrefixOf (hopen : ¬ ['['].isPrefixOf entry = true) :
    entry.head? ≠ some '[' := by
  cases entry with
  | nil => nofun
  | cons first rest =>
      intro hfirst
      cases Option.some.inj hfirst
      exact hopen (by simp)

theorem carries_of_colon (hopen : ¬ ['['].isPrefixOf entry = true)
    (hvalid : validateHostAndPort entry = .ok ()) :
    ∃ host port, Carries entry host port ∧
      ∀ digits, port = some digits → ∃ number, parseU16 digits = some number := by
  unfold validateHostAndPort at hvalid
  split at hvalid
  next => cases hvalid
  next host digits hsplit =>
    obtain ⟨rfl, hdigits⟩ := Text.rsplitOnce_eq_some hsplit
    split at hvalid
    next => cases hvalid
    next hhost =>
      cases hname : validateHostnameNoProxy host with
      | error stop =>
          rw [hname] at hvalid
          cases hvalid
      | ok _ =>
          rw [hname] at hvalid
          have hfirst : host.head? ≠ some '[' := by
            intro hfirst
            apply head?_ne_of_not_isPrefixOf hopen
            rw [List.head?_append, hfirst]
            rfl
          refine ⟨host, some digits, @Carries.plain host (some digits) hhost hfirst ?_, ?_⟩
          · intro other hother
            cases hother
            exact hdigits
          · intro other hother
            cases hother
            exact parseU16_of_validateNoProxyPort hvalid

/-- An entry that passes the check is a wildcard, a network, or a host with a port that
is a number. -/
theorem carries_of_validateNoProxyEntry (hvalid : validateNoProxyEntry reader entry = .ok ())
    (hwildcard : entry ≠ ['*']) (hnetwork : reader.ipNet entry = none) :
    ∃ host port, Carries entry host port ∧
      ∀ digits, port = some digits → ∃ number, parseU16 digits = some number := by
  unfold validateNoProxyEntry at hvalid
  rw [if_neg hwildcard] at hvalid
  split_ifs at hvalid with hscheme hnet hopen hslash hcolon
  · simp [hnetwork] at hnet
  · exact carries_of_bracketed hopen hvalid
  · exact carries_of_colon hopen hvalid
  · have hport : ∀ digits, (none : Option Text) = some digits → ':' ∉ digits := nofun
    have hcarries := Carries.plain hcolon (head?_ne_of_not_isPrefixOf hopen) hport
    rw [portText, List.append_nil] at hcarries
    exact ⟨entry, none, hcarries, nofun⟩

end Accepted

/-! ## The parser -/

section Parser

variable {reader : AddressReader} {entry host : Text} {port : Option Text}

theorem isPrefixOf?_eq_none {text : Text} (hfirst : text.head? ≠ some '[') :
    ['['].isPrefixOf? text = none := by
  cases text with
  | nil => rfl
  | cons first rest =>
      have hne : '[' ≠ first := by
        rintro rfl
        exact hfirst rfl
      simp [List.isPrefixOf?, hne]

theorem bracketedPort_eq
    (hport : ∀ digits, port = some digits → ∃ number, parseU16 digits = some number) :
    bracketedPort (portText port) = .ok (portNumber port) := by
  cases port with
  | none => rfl
  | some digits =>
      obtain ⟨number, hnumber⟩ := hport digits rfl
      have hcolon : [':'].isPrefixOf? (':' :: digits) = some digits := rfl
      simp [bracketedPort, portText, portNumber, hcolon, hnumber, expect]

/-- The parser takes an entry apart the same way. -/
theorem hostAndPort_of_carries (hcarries : Carries entry host port)
    (hport : ∀ digits, port = some digits → ∃ number, parseU16 digits = some number) :
    hostAndPort entry = .ok (host, portNumber port) := by
  cases hcarries with
  | bracketed hhost =>
      rw [hostAndPort_bracketed hhost, bracketedPort_eq hport]
      rfl
  | plain hhost hopen hdigits =>
      have hbare : ['['].isPrefixOf? (host ++ portText port) = none := by
        apply isPrefixOf?_eq_none
        cases host with
        | nil => cases port <;> nofun
        | cons first host => exact hopen
      cases port with
      | none =>
          rw [portText, List.append_nil] at hbare ⊢
          simp only [hostAndPort, hbare, if_neg hhost]
          rfl
      | some digits =>
          obtain ⟨number, hnumber⟩ := hport digits rfl
          have hsplit := @Text.rsplitOnce_append_cons ':' host digits (hdigits digits rfl)
          have hcolon : ':' ∈ host ++ ':' :: digits := by simp
          rw [portText] at hbare
          simp only [hostAndPort, hbare, portText, if_pos hcolon, hsplit, expect, ok_bind, hnumber,
            portNumber, Option.bind_some, Option.getD_some]
          rfl

/-- What the parser makes of an entry that passes the check. -/
theorem parseNoProxyMatcher_of_valid (hvalid : validateNoProxyEntry reader entry = .ok ()) :
    ∃ matcher, parseNoProxyMatcher reader entry = .ok matcher := by
  unfold parseNoProxyMatcher
  by_cases hwildcard : entry = ['*']
  · rw [if_pos hwildcard]
    exact ⟨_, rfl⟩
  · rw [if_neg hwildcard]
    cases hnetwork : reader.ipNet entry with
    | some net => exact ⟨_, rfl⟩
    | none =>
        obtain ⟨host, port, hcarries, hport⟩ :=
          carries_of_validateNoProxyEntry hvalid hwildcard hnetwork
        simp only [hostAndPort_of_carries hcarries hport]
        exact ⟨_, rfl⟩

end Parser

/-! ## Lists -/

section Lists

variable {reader : AddressReader}

theorem validateEntries_ok_iff {list : List Text} :
    validateEntries reader list = .ok () ↔
      ∀ entry ∈ list, validateNoProxyEntry reader entry = .ok () := by
  induction list with
  | nil => simp [validateEntries, pure, Except.pure]
  | cons entry rest ih =>
      rw [validateEntries, List.forall_mem_cons, ← ih]
      cases validateNoProxyEntry reader entry with
      | error stop =>
          constructor
          · nofun
          · rintro ⟨hentry, -⟩
            cases hentry
      | ok _ => exact ⟨fun hrest => ⟨rfl, hrest⟩, fun hboth => hboth.2⟩

theorem mapM_ok {parse : Text → Except Stop NoProxyMatcher} {list : List Text}
    (hparse : ∀ entry ∈ list, ∃ matcher, parse entry = .ok matcher) :
    ∃ matchers, list.mapM parse = .ok matchers ∧
      List.Forall₂ (fun entry matcher => parse entry = .ok matcher) list matchers := by
  induction list with
  | nil => exact ⟨[], rfl, .nil⟩
  | cons entry rest ih =>
      obtain ⟨⟨matcher, hmatcher⟩, hrest⟩ := List.forall_mem_cons.mp hparse
      obtain ⟨matchers, hmatchers, hall⟩ := ih hrest
      refine ⟨matcher :: matchers, ?_, .cons hmatcher hall⟩
      rw [List.mapM_cons, hmatcher, ok_bind, hmatchers]
      rfl

theorem fromValidated_of_valid {raw : Text} (hvalid : validateNoProxy reader raw = .ok ()) :
    ∃ matchers, fromValidated reader raw = .ok matchers ∧
      List.Forall₂ (fun entry matcher => parseNoProxyMatcher reader entry = .ok matcher)
        (entries raw) matchers := by
  apply mapM_ok
  intro entry hentry
  exact parseNoProxyMatcher_of_valid (validateEntries_ok_iff.mp hvalid entry hentry)

end Lists

/-! ## Every source -/

section Sources

variable {reader : AddressReader}

theorem validateNoProxyPort_returns (port : Text) : Returns (validateNoProxyPort port) := by
  unfold validateNoProxyPort
  split
  next => exact .err _
  next => exact .pure _

theorem validateHostnameNoProxy_returns (host : Text) :
    Returns (validateHostnameNoProxy host) := by
  unfold validateHostnameNoProxy
  dsimp only
  split
  next => exact .err _
  next => exact .pure _

theorem validateBracketedIpv6NoProxy_returns {entry : Text}
    (hopen : ['['].isPrefixOf entry = true) :
    Returns (validateBracketedIpv6NoProxy reader entry) := by
  by_cases hclose : ']' ∈ entry
  · obtain ⟨inner, rest, hinner, rfl⟩ := exists_closing hopen hclose
    rw [validateBracketed_eq reader hinner]
    split
    next =>
      unfold validateBracketedPort
      split
      next => exact .pure _
      next =>
        split
        next => exact validateNoProxyPort_returns _
        next => exact .err _
    next => exact .err _
  · unfold validateBracketedIpv6NoProxy
    rw [Text.find_eq_none_iff.mpr hclose]
    exact .err _

theorem validateHostAndPort_returns (entry : Text) : Returns (validateHostAndPort entry) := by
  unfold validateHostAndPort
  split
  next => exact .err _
  next =>
    split
    next => exact .err _
    next =>
      exact .bind (validateHostnameNoProxy_returns _) fun _ _ => validateNoProxyPort_returns _

theorem validateNoProxyEntry_returns (entry : Text) :
    Returns (validateNoProxyEntry reader entry) := by
  unfold validateNoProxyEntry
  split_ifs with hwildcard hscheme hnetwork hopen hslash hcolon
  · exact .pure _
  · exact .err _
  · exact .pure _
  · exact validateBracketedIpv6NoProxy_returns hopen
  · exact .err _
  · exact validateHostAndPort_returns entry
  · exact validateHostnameNoProxy_returns entry

theorem validateNoProxy_returns (raw : Text) : Returns (validateNoProxy reader raw) := by
  unfold validateNoProxy
  induction entries raw with
  | nil => exact .pure _
  | cons entry rest ih => exact .bind (validateNoProxyEntry_returns entry) fun _ _ => ih

theorem noProxyFrom_returns (source : Option Text) : Returns (noProxyFrom reader source) := by
  unfold noProxyFrom
  split
  next raw _ =>
    refine .bind (validateNoProxy_returns raw) ?_
    intro _ hvalid
    obtain ⟨matchers, hmatchers, -⟩ := fromValidated_of_valid hvalid
    rw [hmatchers]
    exact .ok _
  next => exact .pure _

theorem orErr_returns {α : Type} (message : String) (value : Option α) :
    Returns (orErr message value) := by
  cases value with
  | some value => exact .ok value
  | none => exact .err message

variable (urls : UrlReader)

theorem decodeRequiredUserinfo_returns (value : Text) :
    Returns (decodeRequiredUserinfo urls value) := by
  unfold decodeRequiredUserinfo
  split
  next => exact .pure _
  next => exact .err _

theorem decodeUserinfo_returns (value : Text) : Returns (decodeUserinfo urls value) := by
  unfold decodeUserinfo
  split
  next => exact .pure _
  next => exact (decodeRequiredUserinfo_returns urls value).map _

theorem decodePassword_returns (password : Option Text) :
    Returns (decodePassword urls password) := by
  cases password with
  | some password => exact (decodeRequiredUserinfo_returns urls password).map _
  | none => exact .pure _

theorem validateProxyUrlShape_returns (url : Url) : Returns (validateProxyUrlShape url) := by
  unfold validateProxyUrlShape
  split
  next => exact .err _
  next => exact .pure _

theorem proxyKind_returns (scheme : String) : Returns (proxyKind scheme) := by
  unfold proxyKind
  split <;> first | exact .pure _ | exact .err _

theorem parseProxy_returns (raw : Text) : Returns (parseProxy urls raw) := by
  refine .bind (orErr_returns _ _) fun url _ => ?_
  refine .bind (validateProxyUrlShape_returns url) fun _ _ => ?_
  refine .bind (proxyKind_returns _) fun kind _ => ?_
  refine .bind (orErr_returns _ _) fun host _ => ?_
  refine .bind (decodeUserinfo_returns urls _) fun username _ => ?_
  refine .bind (decodePassword_returns urls _) fun password _ => ?_
  split
  next => exact .err _
  next => exact .pure _

theorem selectEnvProxy_returns (values : List (String × Option Text))
    (firstError : Option String) : Returns (selectEnvProxy urls values firstError) := by
  fun_induction selectEnvProxy urls values firstError with
  | case1 => exact .pure _
  | case2 => exact .err _
  | case3 _ _ _ ih => exact ih
  | case4 _ _ _ _ _ ih => exact ih
  | case5 => exact .pure _
  | case6 => exact .pure _
  | case7 _ _ _ _ _ _ reason hpanic => exact (parseProxy_returns urls _ reason hpanic).elim
  | case8 _ _ _ _ _ _ _ _ ih => exact ih

theorem selectProxy_returns (explicit : Option Text) (useEnv : Bool)
    (envGet : String → Option Text) :
    Returns (selectProxy urls explicit useEnv envGet) := by
  unfold selectProxy
  split
  next =>
    split
    next => exact .pure _
    next => exact (parseProxy_returns urls _).map _
  next =>
    split
    next => exact .pure _
    next => exact selectEnvProxy_returns urls _ _

/-- A list that passes the check is made into matchers without a panic, and so every
combination of explicit values and environment gives a configuration or an error. -/
theorem outbound_config_never_panics (reader : AddressReader) :
    (∀ raw, validateNoProxy reader raw = .ok () →
      ∃ matchers, fromValidated reader raw = .ok matchers) ∧
    ∀ (outboundProxy noProxy : Option Text) (useEnv : Bool) (envGet : String → Option Text),
      Returns (fromSourcesWithEnv urls reader outboundProxy noProxy useEnv envGet) := by
  constructor
  · intro raw hvalid
    obtain ⟨matchers, hmatchers, -⟩ := fromValidated_of_valid hvalid
    exact ⟨matchers, hmatchers⟩
  · intro outboundProxy noProxy useEnv envGet
    refine .bind (selectProxy_returns urls outboundProxy useEnv envGet) fun proxy _ => ?_
    cases proxy with
    | some proxy => exact .bind (noProxyFrom_returns _) fun _ _ => .pure _
    | none => exact .pure _

end Sources

def readLoopbackV6 (text : Text) : Option (BitVec 128) :=
  if text = [':', ':', '1'] then some 1 else none

def readLoopback (text : Text) : Option IpAddr :=
  match readLoopbackV6 text with
  | some bits => some (.v6 bits)
  | none =>
      if text = ['1', '2', '7', '.', '0', '.', '0', '.', '1'] then some (.v4 0x7f000001) else none

/-- A reader that knows the loopback addresses. -/
def loopbackReader : AddressReader where
  ipAddr := readLoopback
  ipv6Addr := readLoopbackV6
  ipNet _ := none
  contains _ _ := false

theorem outbound_config_never_panics_loopback :
    validateNoProxy loopbackReader ['*', ',', ' ', '[', ':', ':', '1', ']', ':', '8', '0'] =
        .ok () ∧
      ∃ matchers, fromValidated loopbackReader
        ['*', ',', ' ', '[', ':', ':', '1', ']', ':', '8', '0'] = .ok matchers :=
  ⟨rfl, (outbound_config_never_panics ⟨fun _ => none, fun _ => []⟩ loopbackReader).1 _ rfl⟩

end TgWsProxy.Outbound
