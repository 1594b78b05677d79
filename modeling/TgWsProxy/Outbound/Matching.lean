import TgWsProxy.Outbound.Validation

/-!
# What a NO_PROXY list matches

The documented meaning of a list, entry by entry, and how the matchers compare with it.
The parser has one number for "port 0" and "any port", so an entry that names port 0
matches on every port; in everything else the matchers mean what the documentation says.
-/

namespace TgWsProxy.Outbound

open Foundation

/-! ## The documented meaning -/

/-- The host ends in a dot and the domain. -/
def Below (host domain : Text) : Prop :=
  ∃ sub tail, host = sub ++ '.' :: tail ∧ Text.eqIgnoreAsciiCase tail domain = true

/-- A name without a leading dot or `*.`. -/
def Undotted (name : Text) : Prop :=
  ∀ domain, name ≠ '.' :: domain ∧ name ≠ '*' :: '.' :: domain

/-- The hosts that a name stands for. -/
inductive NameMatches (reader : AddressReader) (host : Text) : Text → Prop
  | address {name : Text} {ip : IpAddr} (hname : reader.ipAddr name = some ip)
      (hhost : reader.ipAddr host = some ip) : NameMatches reader host name
  | apex {name : Text} (hname : reader.ipAddr name = none) (hplain : Undotted name)
      (hhost : host.eqIgnoreAsciiCase name = true) : NameMatches reader host name
  | below {name : Text} (hname : reader.ipAddr name = none) (hplain : Undotted name)
      (hhost : Below host name) : NameMatches reader host name
  | dotted {name domain : Text} (hname : reader.ipAddr name = none)
      (hdotted : name = '.' :: domain ∨ name = '*' :: '.' :: domain) (hhost : Below host domain) :
      NameMatches reader host name

/-- The targets that an entry stands for; with a port, only the ones on that port. -/
inductive EntryMatches (reader : AddressReader) (host : Text) (targetPort : Nat) : Text → Prop
  | all : EntryMatches reader host targetPort ['*']
  | network {entry : Text} {net : IpNet} {ip : IpAddr} (hentry : reader.ipNet entry = some net)
      (hhost : reader.ipAddr host = some ip) (hcontains : reader.contains net ip = true) :
      EntryMatches reader host targetPort entry
  | named {entry name : Text} {port : Option Text} (hwildcard : entry ≠ ['*'])
      (hentry : reader.ipNet entry = none) (hcarries : Carries entry name port)
      (hport : ∀ digits, port = some digits → parseU16 digits = some targetPort)
      (hname : NameMatches reader host name) : EntryMatches reader host targetPort entry

/-- The targets that go around the proxy. -/
def Bypasses (reader : AddressReader) (raw targetHost : Text) (targetPort : Nat) : Prop :=
  (∃ ip, reader.ipAddr (bareHost targetHost) = some ip ∧ ip.isLoopback = true) ∨
    ∃ entry ∈ entries raw, EntryMatches reader (bareHost targetHost) targetPort entry

/-- An entry that names port 0, and its host. -/
def NamesPortZero (reader : AddressReader) (entry name : Text) : Prop :=
  entry ≠ ['*'] ∧ reader.ipNet entry = none ∧
    ∃ digits, Carries entry name (some digits) ∧ parseU16 digits = some 0

/-! ## Hosts -/

section Hosts

variable {reader : AddressReader} {host name suffix : Text}

/-- The suffix test by lengths and bytes finds the dot in the text. -/
theorem below_iff (hle : suffix.byteLength ≤ host.byteLength) :
    Below host suffix ↔ 0 < host.byteLength - suffix.byteLength ∧
      host.bytes[host.byteLength - suffix.byteLength - 1]? = some (UInt8.ofNat '.'.toNat) ∧
      ∃ front tail, host.splitAtByte (host.byteLength - suffix.byteLength) = some (front, tail) ∧
        Text.eqIgnoreAsciiCase tail suffix = true := by
  constructor
  · rintro ⟨sub, tail, rfl, htail⟩
    have hlength := Text.byteLength_of_eqIgnoreAsciiCase htail
    have hstart : Text.byteLength (sub ++ '.' :: tail) - suffix.byteLength =
        Text.byteLength sub + 1 := by
      rw [Text.byteLength_append, Text.byteLength, Text.utf8Size_of_lt (by decide)]
      omega
    rw [hstart]
    exact ⟨Nat.succ_pos _, Text.bytes_getElem?_append_cons (by decide) sub tail, _, _,
      Text.splitAtByte_append_cons (by decide) sub tail, htail⟩
  · rintro ⟨hpos, hdot, front, tail, hsplit, htail⟩
    obtain ⟨sub, rest, rfl, hsub⟩ := Text.exists_of_bytes_getElem? (by decide) hdot
    have hstart : Text.byteLength (sub ++ '.' :: rest) - suffix.byteLength =
        Text.byteLength sub + 1 := by omega
    rw [hstart, Text.splitAtByte_append_cons (by decide)] at hsplit
    cases hsplit
    exact ⟨sub, _, rfl, htail⟩

theorem hostMatches_iff (includeApex : Bool) :
    hostMatches host suffix includeApex = true ↔
      includeApex = true ∧ host.eqIgnoreAsciiCase suffix = true ∨ Below host suffix := by
  unfold hostMatches
  by_cases hapex : (includeApex && host.eqIgnoreAsciiCase suffix) = true
  · rw [if_pos hapex]
    exact ⟨fun _ => .inl (Bool.and_eq_true_iff.mp hapex), fun _ => rfl⟩
  · rw [if_neg hapex, or_iff_right (fun hboth => hapex (Bool.and_eq_true_iff.mpr hboth))]
    by_cases hlt : host.byteLength < suffix.byteLength
    · rw [if_pos hlt]
      constructor
      · nofun
      · rintro ⟨sub, tail, rfl, htail⟩
        have hlength := Text.byteLength_of_eqIgnoreAsciiCase htail
        rw [Text.byteLength_append, Text.byteLength] at hlt
        omega
    · rw [if_neg hlt, below_iff (by omega)]
      simp only [Bool.and_eq_true, decide_eq_true_eq, beq_iff_eq, and_assoc]
      cases host.splitAtByte (host.byteLength - suffix.byteLength) with
      | none => simp
      | some halves =>
          obtain ⟨front, tail⟩ := halves
          simp

theorem stripWildcard_eq_some_iff {domain : Text} :
    stripWildcard name = some domain ↔ name = '.' :: domain ∨ name = '*' :: '.' :: domain := by
  unfold stripWildcard
  rw [Option.or_eq_some_iff, List.isPrefixOf?_eq_some_iff_append_eq,
    List.isPrefixOf?_eq_some_iff_append_eq]
  constructor
  · rintro (rfl | ⟨-, rfl⟩)
    · exact .inr rfl
    · exact .inl rfl
  · rintro (rfl | rfl)
    · exact .inr ⟨rfl, rfl⟩
    · exact .inl rfl

theorem stripWildcard_eq_none_iff : stripWildcard name = none ↔ Undotted name := by
  rw [Option.eq_none_iff_forall_ne_some]
  unfold Undotted
  simp only [ne_eq, stripWildcard_eq_some_iff, not_or]

theorem hostMatcher_matches_iff (port targetPort : Nat) :
    (hostMatcher reader name port).matches reader host (reader.ipAddr host) targetPort = true ↔
      portMatches port targetPort = true ∧ NameMatches reader host name := by
  unfold hostMatcher
  cases hip : reader.ipAddr name with
  | some ip =>
      simp only [NoProxyMatcher.matches, Bool.and_eq_true, beq_iff_eq]
      constructor
      · rintro ⟨hhost, hport⟩
        exact ⟨hport, .address hip hhost.symm⟩
      · rintro ⟨hport, hname⟩
        cases hname with
        | address hname hhost =>
            cases hip.symm.trans hname
            exact ⟨hhost.symm, hport⟩
        | apex hname | below hname | dotted hname => cases hip.symm.trans hname
  | none =>
      cases hstrip : stripWildcard name with
      | some domain =>
          have hdotted := stripWildcard_eq_some_iff.mp hstrip
          simp only [NoProxyMatcher.matches, Bool.and_eq_true, hostMatches_iff, Bool.false_eq_true,
            false_and, false_or]
          apply and_congr_right
          intro _
          constructor
          · exact .dotted hip hdotted
          · intro hname
            cases hname with
            | address hname => cases hip.symm.trans hname
            | apex _ hplain | below _ hplain =>
                exact (hdotted.elim (hplain domain).1 (hplain domain).2).elim
            | dotted _ hother hhost =>
                cases hstrip.symm.trans (stripWildcard_eq_some_iff.mpr hother)
                exact hhost
      | none =>
          have hplain := stripWildcard_eq_none_iff.mp hstrip
          simp only [NoProxyMatcher.matches, Bool.and_eq_true, hostMatches_iff, true_and]
          apply and_congr_right
          intro _
          constructor
          · rintro (hhost | hhost)
            · exact .apex hip hplain hhost
            · exact .below hip hplain hhost
          · intro hname
            cases hname with
            | address hname => cases hip.symm.trans hname
            | apex _ _ hhost => exact .inl hhost
            | below _ _ hhost => exact .inr hhost
            | dotted _ hother =>
                cases hstrip.symm.trans (stripWildcard_eq_some_iff.mpr hother)

end Hosts

/-! ## Entries -/

theorem portText_injective {port other : Option Text} (heq : portText port = portText other) :
    port = other := by
  cases port <;> cases other <;> simp_all [portText]

theorem head?_ne_bracket {host : Text} {port : Option Text} (hopen : host.head? ≠ some '[') :
    (host ++ portText port).head? ≠ some '[' := by
  cases host with
  | nil => cases port <;> nofun
  | cons first host => exact hopen

theorem Carries.unique {entry host other : Text} {port otherPort : Option Text}
    (hcarries : Carries entry host port) (hother : Carries entry other otherPort) :
    host = other ∧ port = otherPort := by
  cases hcarries with
  | bracketed hhost =>
      generalize hentry : '[' :: (host ++ ']' :: portText port) = entry at hother
      cases hother with
      | bracketed hother =>
          obtain ⟨hsame, hports⟩ :=
            Text.append_cons_inj hhost hother (List.cons.inj hentry).2
          exact ⟨hsame, portText_injective hports⟩
      | plain _ hopen => exact (head?_ne_bracket hopen (by rw [← hentry]; rfl)).elim
  | plain hhost hopen hport =>
      generalize hentry : host ++ portText port = entry at hother
      cases hother with
      | bracketed => exact (head?_ne_bracket hopen (by rw [hentry]; rfl)).elim
      | plain hother =>
          cases port with
          | none =>
              cases otherPort with
              | none => exact ⟨by simpa [portText] using hentry, rfl⟩
              | some digits =>
                  rw [portText, List.append_nil] at hentry
                  exact (hhost (by rw [hentry]; simp [portText])).elim
          | some digits =>
              cases otherPort with
              | none =>
                  rw [portText, portText, List.append_nil] at hentry
                  exact (hother (by rw [← hentry]; simp)).elim
              | some otherDigits =>
                  obtain ⟨hsame, hdigits⟩ := Text.append_cons_inj hhost hother hentry
                  exact ⟨hsame, congrArg some hdigits⟩

theorem portMatches_iff {port : Option Text} {targetPort : Nat}
    (hport : ∀ digits, port = some digits → ∃ number, parseU16 digits = some number) :
    portMatches (portNumber port) targetPort = true ↔
      (∀ digits, port = some digits → parseU16 digits = some targetPort) ∨
        ∃ digits, port = some digits ∧ parseU16 digits = some 0 := by
  cases port with
  | none => simp [portMatches, portNumber]
  | some digits =>
      obtain ⟨number, hnumber⟩ := hport digits rfl
      simp [portMatches, portNumber, hnumber, or_comm]

section Entries

variable {reader : AddressReader} {entry host : Text} {matcher : NoProxyMatcher}

/-- A matcher matches what its entry stands for, and on every port if the entry names
port 0. -/
theorem matcher_matches_iff (hvalid : validateNoProxyEntry reader entry = .ok ())
    (hmatcher : parseNoProxyMatcher reader entry = .ok matcher) (targetPort : Nat) :
    matcher.matches reader host (reader.ipAddr host) targetPort = true ↔
      EntryMatches reader host targetPort entry ∨
        ∃ name, NamesPortZero reader entry name ∧ NameMatches reader host name := by
  unfold parseNoProxyMatcher at hmatcher
  by_cases hwildcard : entry = ['*']
  · subst hwildcard
    cases hmatcher
    exact ⟨fun _ => .inl .all, fun _ => rfl⟩
  rw [if_neg hwildcard] at hmatcher
  cases hnetwork : reader.ipNet entry with
  | some net =>
      rw [hnetwork] at hmatcher
      cases hmatcher
      simp only [NoProxyMatcher.matches, Option.any_eq_true]
      constructor
      · rintro ⟨ip, hhost, hcontains⟩
        exact .inl (.network hnetwork hhost hcontains)
      · rintro (hentry | ⟨name, ⟨-, hnone, -⟩, -⟩)
        · cases hentry with
          | all => exact (hwildcard rfl).elim
          | network hentry hhost hcontains =>
              cases hnetwork.symm.trans hentry
              exact ⟨_, hhost, hcontains⟩
          | named _ hentry => cases hnetwork.symm.trans hentry
        · cases hnetwork.symm.trans hnone
  | none =>
      obtain ⟨name, port, hcarries, hport⟩ :=
        carries_of_validateNoProxyEntry hvalid hwildcard hnetwork
      simp only [hnetwork, hostAndPort_of_carries hcarries hport, ok_bind] at hmatcher
      cases hmatcher
      rw [hostMatcher_matches_iff, portMatches_iff hport, or_and_right]
      apply or_congr
      · constructor
        · rintro ⟨htarget, hname⟩
          exact .named hwildcard hnetwork hcarries htarget hname
        · intro hentry
          cases hentry with
          | all => exact (hwildcard rfl).elim
          | network hentry => cases hnetwork.symm.trans hentry
          | named _ _ hother htarget hname =>
              obtain ⟨rfl, rfl⟩ := hcarries.unique hother
              exact ⟨htarget, hname⟩
      · constructor
        · rintro ⟨⟨digits, rfl, hzero⟩, hname⟩
          exact ⟨name, ⟨hwildcard, hnetwork, digits, hcarries, hzero⟩, hname⟩
        · rintro ⟨other, ⟨-, -, digits, hother, hzero⟩, hname⟩
          obtain ⟨rfl, rfl⟩ := hcarries.unique hother
          exact ⟨⟨digits, rfl, hzero⟩, hname⟩

end Entries

/-! ## Lists -/

section Lists

variable {reader : AddressReader} {raw : Text}

theorem any_iff_of_forall₂ {relates : Text → NoProxyMatcher → Prop} {list : List Text}
    {matchers : List NoProxyMatcher} (hall : List.Forall₂ relates list matchers)
    {holds : Text → Prop} {test : NoProxyMatcher → Bool}
    (htest : ∀ entry ∈ list, ∀ matcher, relates entry matcher →
      (test matcher = true ↔ holds entry)) :
    matchers.any test = true ↔ ∃ entry ∈ list, holds entry := by
  induction hall with
  | nil => simp
  | cons hhead _ ih =>
      obtain ⟨hfirst, hrest⟩ := List.forall_mem_cons.mp htest
      simp only [List.any_cons, Bool.or_eq_true, hfirst _ hhead, ih hrest, List.exists_mem_cons_iff]

/-- For every list that passes the check, the matchers match exactly what the list stands
for, and beyond that on every port the hosts of the entries that name port 0. So for a target
they agree with the documentation exactly when the hosts of such entries match it on a
documented ground only, as with a list that names port 0 nowhere. -/
theorem no_proxy_matches_documented (hvalid : validateNoProxy reader raw = .ok ()) :
    ∃ matchers, fromValidated reader raw = .ok matchers ∧
      ∀ (targetHost : Text) (targetPort : Nat),
        (noProxyMatches reader matchers targetHost targetPort = true ↔
          Bypasses reader raw targetHost targetPort ∨
            ∃ entry ∈ entries raw, ∃ name, NamesPortZero reader entry name ∧
              NameMatches reader (bareHost targetHost) name) ∧
        ((noProxyMatches reader matchers targetHost targetPort = true ↔
            Bypasses reader raw targetHost targetPort) ↔
          ∀ entry ∈ entries raw, ∀ name, NamesPortZero reader entry name →
            NameMatches reader (bareHost targetHost) name →
            Bypasses reader raw targetHost targetPort) ∧
        ((∀ entry ∈ entries raw, ∀ name, ¬ NamesPortZero reader entry name) →
          (noProxyMatches reader matchers targetHost targetPort = true ↔
            Bypasses reader raw targetHost targetPort)) := by
  obtain ⟨matchers, hmatchers, hall⟩ := fromValidated_of_valid hvalid
  refine ⟨matchers, hmatchers, ?_⟩
  intro targetHost targetPort
  have hexact : noProxyMatches reader matchers targetHost targetPort = true ↔
      Bypasses reader raw targetHost targetPort ∨
        ∃ entry ∈ entries raw, ∃ name, NamesPortZero reader entry name ∧
          NameMatches reader (bareHost targetHost) name := by
    have hlist := any_iff_of_forall₂ hall fun entry hentry matcher hmatcher =>
      @matcher_matches_iff reader entry (bareHost targetHost) matcher
        (validateEntries_ok_iff.mp hvalid entry hentry) hmatcher targetPort
    unfold noProxyMatches Bypasses
    by_cases hloopback : (reader.ipAddr (bareHost targetHost)).any IpAddr.isLoopback = true
    · rw [if_pos hloopback]
      exact ⟨fun _ => .inl (.inl ((Option.any_eq_true _ _).mp hloopback)), fun _ => rfl⟩
    · rw [if_neg hloopback, hlist,
        or_iff_right (fun hip => hloopback ((Option.any_eq_true _ _).mpr hip))]
      simp only [and_or_left, exists_or]
  have hagree : (noProxyMatches reader matchers targetHost targetPort = true ↔
        Bypasses reader raw targetHost targetPort) ↔
      ∀ entry ∈ entries raw, ∀ name, NamesPortZero reader entry name →
        NameMatches reader (bareHost targetHost) name →
        Bypasses reader raw targetHost targetPort := by
    rw [hexact, or_iff_left_iff_imp]
    constructor
    · intro hzero entry hentry name hnames hname
      exact hzero ⟨entry, hentry, name, hnames, hname⟩
    · rintro hzero ⟨entry, hentry, name, hnames, hname⟩
      exact hzero entry hentry name hnames hname
  refine ⟨hexact, hagree, ?_⟩
  intro hnone
  exact hagree.mpr fun entry hentry name hnames _ => (hnone entry hentry name hnames).elim

end Lists

/-! ## Port 0 -/

theorem no_proxy_matches_documented_https :
    ∃ matchers, fromValidated loopbackReader ['t', '.', 'm', 'e', ':', '4', '4', '3'] =
        .ok matchers ∧
      ∀ targetHost targetPort,
        noProxyMatches loopbackReader matchers targetHost targetPort = true ↔
          Bypasses loopbackReader ['t', '.', 'm', 'e', ':', '4', '4', '3'] targetHost
            targetPort := by
  obtain ⟨matchers, hmatchers, hall⟩ :=
    @no_proxy_matches_documented loopbackReader ['t', '.', 'm', 'e', ':', '4', '4', '3'] rfl
  refine ⟨matchers, hmatchers, fun targetHost targetPort => (hall targetHost targetPort).2.2 ?_⟩
  intro entry hentry name
  cases List.mem_singleton.mp hentry
  rintro ⟨-, -, digits, hcarries, hzero⟩
  have hport : Carries ['t', '.', 'm', 'e', ':', '4', '4', '3'] ['t', '.', 'm', 'e']
      (some ['4', '4', '3']) :=
    @Carries.plain ['t', '.', 'm', 'e'] (some ['4', '4', '3']) (by decide) (by decide) (by simp)
  cases (hport.unique hcarries).2
  cases hzero

/-- `t.me:0` passes the check and sends `t.me:443` around the proxy. -/
theorem no_proxy_port_zero_matches_any_port :
    validateNoProxy loopbackReader ['t', '.', 'm', 'e', ':', '0'] = .ok () ∧
      fromValidated loopbackReader ['t', '.', 'm', 'e', ':', '0'] =
        .ok [.host ['t', '.', 'm', 'e'] 0 true] ∧
      noProxyMatches loopbackReader [.host ['t', '.', 'm', 'e'] 0 true] ['t', '.', 'm', 'e'] 443 =
        true ∧
      ¬ Bypasses loopbackReader ['t', '.', 'm', 'e', ':', '0'] ['t', '.', 'm', 'e'] 443 := by
  refine ⟨rfl, rfl, rfl, ?_⟩
  rintro (⟨ip, hip, -⟩ | ⟨entry, hentry, hmatches⟩)
  · cases hip
  · cases List.mem_singleton.mp hentry
    have hcarries : Carries ['t', '.', 'm', 'e', ':', '0'] ['t', '.', 'm', 'e'] (some ['0']) :=
      @Carries.plain ['t', '.', 'm', 'e'] (some ['0']) (by decide) (by decide) (by simp)
    cases hmatches with
    | network hentry => cases hentry
    | named _ _ hother hport _ =>
        obtain ⟨-, rfl⟩ := hcarries.unique hother
        cases hport ['0'] rfl

end TgWsProxy.Outbound
