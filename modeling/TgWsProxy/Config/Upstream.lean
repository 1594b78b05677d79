import TgWsProxy.Config.LinkSecret
import TgWsProxy.Foundation.Text

/-!
# Upstream proxies on the command line

An upstream MTProto proxy is named by `HOST:PORT:SECRET`. What the parser accepts is
exactly this shape, read from the right; and the secret of a link that this program
advertises, given to another instance of it, names the listener behind the link.
-/

namespace TgWsProxy

open Crypto Foundation Foundation.Text
open Foundation.Hex (Codec)

/-- An upstream proxy with its parsed secret. It is only built from a secret that decodes,
and its key and hostname are those of the decoded bytes. -/
structure UpstreamProxy (hex : Codec) extends MtProtoProxy where
  secretKey : Bytes
  faketlsHostname : Option String
  port_le : port ≤ 65535
  decoded : ∃ raw, hex.decode secret = some raw ∧ secretKey = Crypto.secretKey raw ∧
    Crypto.faketlsHostname raw = faketlsHostname.map asBytes

/-- `rsplitn(3, ':')`: host, port and secret. -/
def splitTriplet (text : Text) : Option (Text × Text × Text) := do
  let (rest, secret) ← rsplitOnce ':' text
  let (host, port) ← rsplitOnce ':' rest
  return (host, port, secret)

/-- The hostname of a FakeTLS secret, which must be text. -/
def hostnameText (raw : Bytes) : Except String (Option String) :=
  match Crypto.faketlsHostname raw with
  | none => .ok none
  | some bytes =>
      match String.fromUTF8? ⟨bytes.toArray⟩ with
      | none => .error "FakeTLS secret hostname must be valid UTF-8"
      | some hostname => .ok (some hostname)

theorem asBytes_of_fromUTF8 {bytes : Bytes} {text : String}
    (htext : String.fromUTF8? ⟨bytes.toArray⟩ = some text) : asBytes text = bytes := by
  unfold String.fromUTF8? at htext
  split at htext
  next hvalid =>
    cases htext
    rfl
  next => cases htext

theorem fromUTF8_asBytes (text : String) :
    String.fromUTF8? ⟨(asBytes text).toArray⟩ = some text := by
  have hbytes : (⟨(asBytes text).toArray⟩ : ByteArray) = text.toByteArray := rfl
  rw [hbytes]
  exact dif_pos text.isValidUTF8

theorem hostnameText_eq_ok {raw : Bytes} {hostname : Option String}
    (hhostname : hostnameText raw = .ok hostname) :
    Crypto.faketlsHostname raw = hostname.map asBytes := by
  unfold hostnameText at hhostname
  split at hhostname
  next hnone =>
    cases hhostname
    exact hnone
  next bytes hbytes =>
    split at hhostname
    next => cases hhostname
    next text htext =>
      cases hhostname
      rw [hbytes, Option.map_some, asBytes_of_fromUTF8 htext]

theorem hostnameText_of_eq {raw : Bytes} {hostname : Option String}
    (hraw : Crypto.faketlsHostname raw = hostname.map asBytes) :
    hostnameText raw = .ok hostname := by
  unfold hostnameText
  rw [hraw]
  cases hostname with
  | none => rfl
  | some text =>
      simp only [Option.map_some]
      rw [fromUTF8_asBytes]

/-- `parse_mtproto_proxy`; `debug` is how a string is quoted in a message. -/
def parseMtprotoProxy (hex : Codec) (debug : String → String) (text : String) :
    Except String (UpstreamProxy hex) :=
  match splitTriplet text.toList with
  | none => .error ("expected HOST:PORT:SECRET, got " ++ debug text)
  | some (host, portText, secretText) =>
      match hport : parseUnsigned 10 65535 portText with
      | none => .error ("invalid port " ++ debug (String.ofList portText))
      | some port =>
          match hraw : hex.decode (String.ofList secretText) with
          | none => .error ("invalid hex secret " ++ debug (String.ofList secretText))
          | some raw =>
              match hhostname : hostnameText raw with
              | .error error => .error error
              | .ok hostname =>
                  .ok
                    { host := String.ofList host
                      port
                      secret := String.ofList secretText
                      secretKey := Crypto.secretKey raw
                      faketlsHostname := hostname
                      port_le := parseUnsigned_le hport
                      decoded := ⟨raw, hraw, rfl, hostnameText_eq_ok hhostname⟩ }

/-! ## What is accepted -/

theorem splitTriplet_eq_some_iff {text host port secret : Text} :
    splitTriplet text = some (host, port, secret) ↔
      text = host ++ ':' :: (port ++ ':' :: secret) ∧ ':' ∉ port ∧ ':' ∉ secret := by
  unfold splitTriplet
  constructor
  · intro hsplit
    obtain ⟨⟨rest, last⟩, hlast, hrest⟩ := Option.bind_eq_some_iff.mp hsplit
    obtain ⟨⟨first, middle⟩, hfirst, hparts⟩ := Option.bind_eq_some_iff.mp hrest
    cases hparts
    obtain ⟨rfl, hsecret⟩ := rsplitOnce_eq_some hlast
    obtain ⟨rfl, hport⟩ := rsplitOnce_eq_some hfirst
    exact ⟨by simp, hport, hsecret⟩
  · rintro ⟨rfl, hport, hsecret⟩
    have hlast : rsplitOnce ':' (host ++ ':' :: (port ++ ':' :: secret)) =
        some (host ++ ':' :: port, secret) := by
      have hcons := @rsplitOnce_append_cons ':' (host ++ ':' :: port) secret hsecret
      rwa [List.append_assoc, List.cons_append] at hcons
    simp only [hlast, Option.bind_eq_bind, Option.bind_some, rsplitOnce_append_cons hport]
    rfl

/-- Key and hostname are determined by the secret. -/
theorem UpstreamProxy.ext_of_secret {hex : Codec} {left right : UpstreamProxy hex}
    (heq : left.toMtProtoProxy = right.toMtProtoProxy) : left = right := by
  obtain ⟨proxy, key, hostname, hport, raw, hraw, hkey, hhostname⟩ := left
  obtain ⟨proxy', key', hostname', hport', raw', hraw', hkey', hhostname'⟩ := right
  obtain rfl : proxy = proxy' := heq
  obtain rfl : raw = raw' := Option.some.inj (hraw.symm.trans hraw')
  have hsame : some hostname = some hostname' := by
    have hok := hostnameText_of_eq hhostname
    rw [hostnameText_of_eq hhostname'] at hok
    exact (congrArg Except.toOption hok).symm
  cases hsame
  subst hkey hkey'
  rfl

/-- The parser accepts `HOST:PORT:SECRET` and nothing else: the port is a number of 16
bits, the secret decodes, and its hostname, if it has one, is text. -/
theorem parseMtprotoProxy_eq_ok_iff {hex : Codec} {debug : String → String} {text : String}
    {proxy : UpstreamProxy hex} :
    parseMtprotoProxy hex debug text = .ok proxy ↔
      ∃ port, text.toList = proxy.host.toList ++ ':' :: (port ++ ':' :: proxy.secret.toList) ∧
        ':' ∉ port ∧ ':' ∉ proxy.secret.toList ∧ parseUnsigned 10 65535 port = some proxy.port := by
  constructor
  · intro hparse
    unfold parseMtprotoProxy at hparse
    split at hparse
    next => cases hparse
    next host portText secretText hsplit =>
      split at hparse
      next => cases hparse
      next port hport =>
        split at hparse
        next => cases hparse
        next raw hraw =>
          split at hparse
          next => cases hparse
          next hostname hhostname =>
            cases hparse
            obtain ⟨htext, hcolon, hsecret⟩ := splitTriplet_eq_some_iff.mp hsplit
            exact ⟨portText, by simpa using htext, hcolon, by simpa using hsecret, hport⟩
  · rintro ⟨portText, htext, hcolon, hsecret, hport⟩
    obtain ⟨raw, hraw, hkey, hhostname⟩ := proxy.decoded
    have hsplit := splitTriplet_eq_some_iff.mpr ⟨htext, hcolon, hsecret⟩
    unfold parseMtprotoProxy
    split
    next hnone => cases hnone.symm.trans hsplit
    next host other secretText hsome =>
      cases hsome.symm.trans hsplit
      split
      next hnone => cases hnone.symm.trans hport
      next port hsome =>
        cases hsome.symm.trans hport
        split
        next hnone =>
          rw [String.ofList_toList] at hnone
          cases hnone.symm.trans hraw
        next found hfound =>
          rw [String.ofList_toList] at hfound
          cases hfound.symm.trans hraw
          split
          next herror => cases herror.symm.trans (hostnameText_of_eq hhostname)
          next hostname hok =>
            refine congrArg Except.ok (UpstreamProxy.ext_of_secret ?_)
            simp

/-! ## From link to upstream -/

namespace Started

variable {hex : Codec} (started : Started hex)

/-- The proxy has the key and the transport of the listener, under the given secret. -/
structure Named (index : Fin started.config.secrets.length) (proxy : UpstreamProxy hex) :
    Prop where
  key : started.normalizedSecrets[index.val]? = some proxy.secretKey
  hostname : proxy.faketlsHostname = started.listenFaketlsDomain

theorem asBytes_injective : Function.Injective asBytes := by
  intro left right heq
  have hleft := fromUTF8_asBytes left
  rw [heq, fromUTF8_asBytes right] at hleft
  exact (Option.some.inj hleft).symm

/-- A proxy with the secret of the link has the key and the transport of the listener
exactly when the link matches. -/
theorem named_iff (index : Fin started.config.secrets.length) {proxy : UpstreamProxy hex}
    (hlink : started.linkSecretFor (started.config.secrets.get index) = some proxy.secret) :
    started.Named index proxy ↔ started.LinkMatches index := by
  obtain ⟨raw, hraw, hkey, hhostname⟩ := proxy.decoded
  rw [started.linkMatches_iff index hlink hraw, hhostname, ← hkey]
  have hserver := started.normalizedSecrets_getElem index
  constructor
  · rintro ⟨hsame, hdomain⟩
    exact ⟨Option.some.inj (hsame.symm.trans hserver), by rw [hdomain]⟩
  · rintro ⟨hsame, hdomain⟩
    exact ⟨by rw [hserver, hsame], Option.map_injective asBytes_injective hdomain⟩

theorem linkMatches_iff_advertisable (index : Fin started.config.secrets.length) :
    started.LinkMatches index ↔
      Advertisable started.listenFaketlsDomain (started.config.secrets.get index)
        (started.rawSecret index) := by
  cases hdomain : started.listenFaketlsDomain with
  | none => exact started.linkMatches_plain index hdomain
  | some domain => exact started.linkMatches_faketls index hdomain

end Started

/-- The argument that names a proxy. -/
def upstreamArgument (host : String) (port : Nat) (secret : String) : String :=
  host ++ ":" ++ toString port ++ ":" ++ secret

/-- A proxy is read back from its argument, whatever its host is. -/
theorem parseMtprotoProxy_upstreamArgument (debug : String → String)
    (proxy : UpstreamProxy Hex.standard) :
    parseMtprotoProxy Hex.standard debug (upstreamArgument proxy.host proxy.port proxy.secret) =
      .ok proxy := by
  rw [parseMtprotoProxy_eq_ok_iff]
  refine ⟨Nat.toDigits 10 proxy.port, ?_, ?_, ?_, parseUnsigned_toDigits proxy.port_le⟩
  · simp [upstreamArgument]
  · intro hmem
    have hdigit := Nat.isDigit_of_mem_toDigits (by decide) (by decide) hmem
    revert hdigit
    decide
  · obtain ⟨raw, hraw, -⟩ := proxy.decoded
    exact Hex.not_mem_of_decodeChars hraw (by decide)

/-- Whoever gives the secret of an advertised link to another instance as an upstream,
with any host and port, gets a proxy with the key and the transport of the listener
exactly when the secret is advertisable. -/
theorem link_names_listener (started : Started Hex.standard)
    (index : Fin started.config.secrets.length) (debug : String → String) (host : String)
    (port : Nat) (hport : port ≤ 65535) :
    (∃ link proxy, started.linkSecretFor (started.config.secrets.get index) = some link ∧
        parseMtprotoProxy Hex.standard debug (upstreamArgument host port link) = .ok proxy ∧
        proxy.toMtProtoProxy = ⟨host, port, link⟩ ∧ started.Named index proxy) ↔
      Advertisable started.listenFaketlsDomain (started.config.secrets.get index)
        (started.rawSecret index) := by
  rw [← started.linkMatches_iff_advertisable index]
  constructor
  · rintro ⟨link, proxy, hlink, -, hproxy, hnamed⟩
    have hsecret : proxy.secret = link := congrArg MtProtoProxy.secret hproxy
    exact (started.named_iff index (hsecret ▸ hlink)).mp hnamed
  · intro hmatches
    have ⟨link, raw, hlink, hraw, _, hhostname⟩ := hmatches
    let proxy : UpstreamProxy Hex.standard :=
      { host, port, secret := link, secretKey := secretKey raw
        faketlsHostname := started.listenFaketlsDomain
        port_le := hport
        decoded := ⟨raw, hraw, rfl, hhostname⟩ }
    exact ⟨link, proxy, hlink, parseMtprotoProxy_upstreamArgument debug proxy, rfl,
      (started.named_iff index hlink).mpr hmatches⟩

/-- A listener that poses as `a.ru`. -/
def posingStarted : Started Hex.standard where
  config := { secrets := ["2a519e5be6c3219c69879e5fa2a0eab8"], listenFaketlsDomain := some "a.ru" }
  normalizedSecrets := [[0x2a, 0x51, 0x9e, 0x5b, 0xe6, 0xc3, 0x21, 0x9c, 0x69, 0x87, 0x9e, 0x5f,
    0xa2, 0xa0, 0xea, 0xb8]]
  decoded := rfl

theorem link_names_listener_posing :
    ∃ link proxy, posingStarted.linkSecretFor (posingStarted.config.secrets.get ⟨0, by decide⟩) =
        some link ∧
      parseMtprotoProxy Hex.standard String.quote (upstreamArgument "10.0.0.1" 443 link) =
        .ok proxy ∧
      proxy.toMtProtoProxy = ⟨"10.0.0.1", 443, link⟩ ∧ posingStarted.Named ⟨0, by decide⟩ proxy :=
  (link_names_listener posingStarted ⟨0, by decide⟩ String.quote "10.0.0.1" 443 (by decide)).mpr
    ⟨by decide, by decide⟩

end TgWsProxy
