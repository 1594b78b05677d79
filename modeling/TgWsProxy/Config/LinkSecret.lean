import TgWsProxy.Config.Model
import TgWsProxy.Crypto.Primitives
import TgWsProxy.Foundation.Hex

/-!
# Secrets, the listener and the advertised link

At startup every configured secret is decoded to the key that the listener uses,
and the listener's FakeTLS domain is fixed. The link printed for a secret carries
a secret of its own, from which a client derives its key and its transport. This
module says for which secrets the two sides agree.
-/

namespace TgWsProxy

open Crypto
open Foundation.Hex (Codec)

/-- `str::starts_with`. -/
def startsWith (text start : String) : Bool := start.toList.isPrefixOf text.toList

/-- `str::as_bytes`. -/
def asBytes (text : String) : Bytes := text.toByteArray.data.toList

theorem asBytes_eq_nil_iff {text : String} : asBytes text = [] ↔ text = "" := by
  unfold asBytes
  rw [← String.toByteArray_eq_empty_iff, Array.toList_eq_nil_iff]
  constructor
  · intro hdata
    exact ByteArray.ext hdata
  · intro hempty
    rw [hempty]
    rfl

/-- The key of a secret. The source panics on a secret that is not hexadecimal. -/
def decodeSecretKey (hex : Codec) (secret : String) : Option Bytes :=
  (hex.decode secret).map secretKey

namespace Config

/-- The first configured secret. -/
def primarySecret (config : Config) : String := (config.secrets.head?).getD ""

/-- The inbound FakeTLS domain: the configured one, or the hostname that an `ee`
primary secret carries. -/
def deriveListenFaketlsDomain (hex : Codec) (config : Config) : Option String :=
  match config.listenFaketlsDomain with
  | some domain => some domain
  | none =>
      (hex.decode config.primarySecret).bind fun raw =>
        (faketlsHostname raw).bind fun hostname => String.fromUTF8? ⟨hostname.toArray⟩

end Config

/-- A configuration that passed `with_defaults`, with the keys it decoded. -/
structure Started (hex : Codec) where
  config : Config
  normalizedSecrets : List Bytes
  decoded : config.secrets.mapM (decodeSecretKey hex) = some normalizedSecrets

/-- The keys of all secrets; one that does not decode stops the program. -/
def Config.normalizeSecrets (hex : Codec) (config : Config) : Option (Started hex) :=
  match hdecoded : config.secrets.mapM (decodeSecretKey hex) with
  | some normalizedSecrets => some ⟨config, normalizedSecrets, hdecoded⟩
  | none => none

/-- What `with_defaults` does to secrets: without any, a random one is filled in. -/
def Config.withDefaultSecrets (hex : Codec) (random : Block 16) (config : Config) :
    Option (Started hex) :=
  if config.secrets = [] then
    { config with secrets := [hex.encode random.toList] }.normalizeSecrets hex
  else config.normalizeSecrets hex

namespace Started

variable {hex : Codec} (started : Started hex)

def listenFaketlsDomain : Option String := started.config.deriveListenFaketlsDomain hex

/-- The secret in the link generated for a configured secret. -/
def linkSecretFor (secret : String) : Option String :=
  match started.listenFaketlsDomain with
  | some domain =>
      (decodeSecretKey hex secret).map fun key =>
        "ee" ++ hex.encode key ++ hex.encode (asBytes domain)
  | none =>
      if startsWith secret "dd" || startsWith secret "ee" then some secret
      else some ("dd" ++ secret)

/-- The link of a secret gives a client the key that the server uses for the
secret, and selects the transport that the listener runs. -/
def LinkMatches (index : Fin started.config.secrets.length) : Prop :=
  ∃ link raw, started.linkSecretFor (started.config.secrets.get index) = some link ∧
    hex.decode link = some raw ∧
    started.normalizedSecrets[index.val]? = some (secretKey raw) ∧
    faketlsHostname raw = started.listenFaketlsDomain.map asBytes

/-- The bytes of a configured secret. -/
def rawSecret (index : Fin started.config.secrets.length) : Bytes :=
  (hex.decode (started.config.secrets.get index)).getD []

end Started

/-! ## Decoding at startup -/

theorem mapM_getElem {α β : Type} {f : α → Option β} {items : List α} {results : List β}
    (hmap : items.mapM f = some results) (index : Fin items.length) :
    ∃ result, f (items.get index) = some result ∧ results[index.val]? = some result := by
  induction items generalizing results with
  | nil => exact index.elim0
  | cons item rest ih =>
      simp only [List.mapM_cons, Option.bind_eq_bind, Option.bind_eq_some_iff] at hmap
      obtain ⟨head, hhead, tail, htail, hresults⟩ := hmap
      cases hresults
      cases index using Fin.cases with
      | zero => exact ⟨head, hhead, rfl⟩
      | succ index => exact ih htail index

theorem mapM_isSome_iff {α β : Type} {f : α → Option β} {items : List α} :
    (items.mapM f).isSome ↔ ∀ item ∈ items, (f item).isSome := by
  induction items with
  | nil => simp
  | cons item rest ih =>
      rw [List.mapM_cons, List.forall_mem_cons, ← ih]
      cases f item with
      | none => simp
      | some head => cases rest.mapM f <;> simp

theorem Config.normalizeSecrets_isSome_iff (hex : Codec) (config : Config) :
    (config.normalizeSecrets hex).isSome ↔
      ∀ secret ∈ config.secrets, (hex.decode secret).isSome := by
  have hall : (config.secrets.mapM (decodeSecretKey hex)).isSome ↔
      ∀ secret ∈ config.secrets, (hex.decode secret).isSome := by
    simp only [mapM_isSome_iff, decodeSecretKey, Option.isSome_map]
  rw [← hall]
  unfold normalizeSecrets
  split
  next hdecoded => simp [hdecoded]
  next hdecoded => simp [hdecoded]

/-- The program starts exactly with secrets that all are hexadecimal. -/
theorem Config.withDefaultSecrets_isSome_iff (hex : Codec) (random : Block 16) (config : Config) :
    (config.withDefaultSecrets hex random).isSome ↔
      ∀ secret ∈ config.secrets, (hex.decode secret).isSome := by
  unfold withDefaultSecrets
  split
  next hempty =>
    rw [normalizeSecrets_isSome_iff]
    simp [hempty, hex.decode_encode]
  next => exact normalizeSecrets_isSome_iff hex config

namespace Started

variable {hex : Codec} (started : Started hex)

theorem decode_secret (index : Fin started.config.secrets.length) :
    hex.decode (started.config.secrets.get index) = some (started.rawSecret index) := by
  obtain ⟨key, hkey, _⟩ := mapM_getElem started.decoded index
  obtain ⟨raw, hraw, _⟩ := Option.map_eq_some_iff.mp hkey
  rw [rawSecret, hraw]
  rfl

theorem normalizedSecrets_getElem (index : Fin started.config.secrets.length) :
    started.normalizedSecrets[index.val]? = some (secretKey (started.rawSecret index)) := by
  obtain ⟨key, hkey, hget⟩ := mapM_getElem started.decoded index
  rw [hget, ← hkey, decodeSecretKey, started.decode_secret index]
  rfl

end Started

/-! ## Mode flags -/

section Flags

variable {hex : Codec} {raw : Bytes}

theorem decode_padded (hex : Codec) : hex.decode "dd" = some [secretModePadded] :=
  hex.decode_pair secretModePadded

theorem decode_faketls (hex : Codec) : hex.decode "ee" = some [secretModeFaketls] :=
  hex.decode_pair secretModeFaketls

theorem eq_append_of_startsWith {text start : String} (hstart : startsWith text start = true) :
    ∃ rest, text = start ++ rest := by
  obtain ⟨rest, hrest⟩ := List.isPrefixOf_iff_prefix.mp hstart
  refine ⟨String.ofList rest, ?_⟩
  apply String.toList_inj.mp
  rw [String.toList_append, String.toList_ofList, hrest]

/-- A secret whose text starts with the digits of a flag decodes to bytes that
start with the flag. -/
theorem head_of_startsWith {secret flagText : String} {flag : UInt8}
    (hflag : hex.decode flagText = some [flag]) (hstart : startsWith secret flagText = true)
    (hraw : hex.decode secret = some raw) : raw.head? = some flag := by
  obtain ⟨rest, rfl⟩ := eq_append_of_startsWith hstart
  rw [hex.decode_append _ _ _ hflag] at hraw
  obtain ⟨tail, _, rfl⟩ := Option.map_eq_some_iff.mp hraw
  rfl

theorem hasModePrefix_cons {flag : UInt8}
    (hflag : flag = secretModePadded ∨ flag = secretModeFaketls) (tail : Bytes) :
    hasModePrefix (flag :: tail) = decide (secretKeyLen ≤ tail.length) := by
  have hknown : (some flag == some secretModePadded || some flag == some secretModeFaketls) =
      true := by
    rcases hflag with rfl | rfl <;> rfl
  have hlen : prefixedSecretLen ≤ tail.length + 1 ↔ secretKeyLen ≤ tail.length := by
    change 1 + 16 ≤ tail.length + 1 ↔ 16 ≤ tail.length
    omega
  simp only [hasModePrefix, List.head?_cons, hknown, Bool.and_true, List.length_cons, hlen]

/-- The key that a client derives from a flagged secret. -/
theorem secretKey_cons {flag : UInt8}
    (hflag : flag = secretModePadded ∨ flag = secretModeFaketls) (tail : Bytes) :
    secretKey (flag :: tail) =
      if secretKeyLen ≤ tail.length then tail.take secretKeyLen else flag :: tail := by
  rw [secretKey, hasModePrefix_cons hflag]
  simp only [decide_eq_true_eq]
  rfl

/-- The FakeTLS link: the client recovers key and hostname exactly when the key
has its regular length and there is a hostname. -/
theorem faketls_link_iff (key hostname : Bytes) :
    secretKey (secretModeFaketls :: (key ++ hostname)) = key ∧
        faketlsHostname (secretModeFaketls :: (key ++ hostname)) = some hostname ↔
      key.length = secretKeyLen ∧ hostname ≠ [] := by
  constructor
  · rintro ⟨_, hhostname⟩
    unfold faketlsHostname at hhostname
    split at hhostname
    next hlong =>
      have hlength := congrArg List.length (Option.some.inj hhostname)
      simp only [List.length_drop, List.length_cons, List.length_append, prefixedSecretLen,
        secretModePrefixLen, secretKeyLen] at hlength hlong ⊢
      refine ⟨by omega, ?_⟩
      rintro rfl
      simp only [List.length_nil] at hlength hlong
      omega
    next => cases hhostname
  · rintro ⟨hkey, hhostname⟩
    have hpos : 0 < hostname.length := List.length_pos_of_ne_nil hhostname
    constructor
    · rw [secretKey_cons (.inr rfl), if_pos (by rw [List.length_append]; omega), ← hkey]
      exact List.take_left
    · have hlong : prefixedSecretLen < (secretModeFaketls :: (key ++ hostname)).length := by
        simp only [List.length_cons, List.length_append, hkey, prefixedSecretLen,
          secretModePrefixLen]
        omega
      unfold faketlsHostname
      rw [if_pos ⟨hlong, rfl⟩]
      change some ((key ++ hostname).drop secretKeyLen) = _
      rw [← hkey, List.drop_left]

/-- The key survives a `dd` in front of the whole secret. -/
def SurvivesPadding (raw : Bytes) : Prop :=
  raw.length = secretKeyLen ∨
    (hasModePrefix raw = true ∧ raw.take secretKeyLen = (raw.drop 1).take secretKeyLen)

theorem padded_link_iff (raw : Bytes) :
    secretKey (secretModePadded :: raw) = secretKey raw ↔ SurvivesPadding raw := by
  rw [secretKey_cons (.inl rfl)]
  unfold SurvivesPadding
  by_cases hshort : raw.length < secretKeyLen
  · have hunflagged : hasModePrefix raw = false := by
      have hlong : ¬ prefixedSecretLen ≤ raw.length := by
        change ¬ 1 + secretKeyLen ≤ raw.length
        omega
      simp [hasModePrefix, hlong]
    -- Too short for a flag even with the `dd`: the client keeps the `dd` in its key.
    rw [if_neg (by omega), secretKey, hunflagged]
    simp only [Bool.false_eq_true, if_false, false_and, or_false]
    constructor
    · intro heq
      have hlength := congrArg List.length heq
      simp at hlength
    · intro hlength
      omega
  · rw [if_pos (by omega), secretKey]
    cases hflagged : hasModePrefix raw with
    | true =>
        have hlong : prefixedSecretLen ≤ raw.length := by
          simp only [hasModePrefix, Bool.and_eq_true, decide_eq_true_eq] at hflagged
          exact hflagged.1
        have hne : raw.length ≠ secretKeyLen := by
          change 1 + secretKeyLen ≤ raw.length at hlong
          omega
        simp only [if_true, hne, true_and, false_or]
        rfl
    | false =>
        simp only [Bool.false_eq_true, if_false, false_and, or_false, List.take_eq_self_iff]
        omega

end Flags

/-! ## The link and the listener -/

/-- When the link of a secret can say what the listener does. A FakeTLS link has
room for a key of the regular length and a hostname. On a plain listener a `dd`
secret is passed on as it is, an `ee` secret too, and any other secret gets a
`dd` in front of it. -/
def Advertisable (domain : Option String) (secret : String) (raw : Bytes) : Prop :=
  match domain with
  | some domain => (secretKey raw).length = secretKeyLen ∧ domain ≠ ""
  | none =>
      if startsWith secret "dd" then True
      else if startsWith secret "ee" then raw.length ≤ prefixedSecretLen
      else SurvivesPadding raw

namespace Started

variable {hex : Codec} (started : Started hex)

/-- With the link and its bytes known, matching is a fact about these bytes. -/
theorem linkMatches_iff (index : Fin started.config.secrets.length) {link : String} {raw : Bytes}
    (hlink : started.linkSecretFor (started.config.secrets.get index) = some link)
    (hraw : hex.decode link = some raw) :
    started.LinkMatches index ↔
      secretKey raw = secretKey (started.rawSecret index) ∧
        faketlsHostname raw = started.listenFaketlsDomain.map asBytes := by
  have hserver := started.normalizedSecrets_getElem index
  constructor
  · rintro ⟨link', raw', hlink', hraw', hkey, hhostname⟩
    obtain rfl : link = link' := Option.some.inj (hlink.symm.trans hlink')
    obtain rfl : raw = raw' := Option.some.inj (hraw.symm.trans hraw')
    exact ⟨Option.some.inj (hkey.symm.trans hserver), hhostname⟩
  · rintro ⟨hkey, hhostname⟩
    exact ⟨link, raw, hlink, hraw, by rw [hserver, hkey], hhostname⟩

theorem linkMatches_faketls (index : Fin started.config.secrets.length) {domain : String}
    (hdomain : started.listenFaketlsDomain = some domain) :
    started.LinkMatches index ↔
      (secretKey (started.rawSecret index)).length = secretKeyLen ∧ domain ≠ "" := by
  let key := secretKey (started.rawSecret index)
  have hlink : started.linkSecretFor (started.config.secrets.get index) =
      some ("ee" ++ hex.encode key ++ hex.encode (asBytes domain)) := by
    simp only [linkSecretFor, hdomain, decodeSecretKey, started.decode_secret index,
      Option.map_some, key]
  have hraw : hex.decode ("ee" ++ hex.encode key ++ hex.encode (asBytes domain)) =
      some (secretModeFaketls :: (key ++ asBytes domain)) := by
    have hflagged : hex.decode ("ee" ++ hex.encode key) = some (secretModeFaketls :: key) := by
      rw [hex.decode_append _ _ _ (decode_faketls hex), hex.decode_encode]
      rfl
    rw [hex.decode_append _ _ _ hflagged, hex.decode_encode]
    rfl
  rw [started.linkMatches_iff index hlink hraw, hdomain, Option.map_some, faketls_link_iff key,
    ne_eq, asBytes_eq_nil_iff]

theorem linkMatches_plain (index : Fin started.config.secrets.length)
    (hdomain : started.listenFaketlsDomain = none) :
    started.LinkMatches index ↔
      Advertisable none (started.config.secrets.get index) (started.rawSecret index) := by
  have hsecret := started.decode_secret index
  unfold Advertisable
  simp only
  split
  next hpadded =>
    have hlink : started.linkSecretFor (started.config.secrets.get index) =
        some (started.config.secrets.get index) := by
      simp only [linkSecretFor, hdomain, hpadded, Bool.true_or, if_true]
    rw [started.linkMatches_iff index hlink hsecret, hdomain]
    -- A `dd` secret names no hostname, whatever its length.
    have hhead := head_of_startsWith (decode_padded hex) hpadded hsecret
    have hother : secretModePadded ≠ secretModeFaketls := by decide
    simp [faketlsHostname, hhead, hother]
  next hpadded =>
    split
    next hfaketls =>
      have hlink : started.linkSecretFor (started.config.secrets.get index) =
          some (started.config.secrets.get index) := by
        simp only [linkSecretFor, hdomain, hfaketls, Bool.or_true, if_true]
      rw [started.linkMatches_iff index hlink hsecret, hdomain]
      -- An `ee` secret names one as soon as bytes follow the key.
      have hhead := head_of_startsWith (decode_faketls hex) hfaketls hsecret
      simp [faketlsHostname, hhead]
    next hfaketls =>
      have hlink : started.linkSecretFor (started.config.secrets.get index) =
          some ("dd" ++ started.config.secrets.get index) := by
        rw [Bool.not_eq_true] at hpadded hfaketls
        simp only [linkSecretFor, hdomain, hpadded, hfaketls, Bool.or_self, Bool.false_eq_true,
          if_false]
      have hraw : hex.decode ("dd" ++ started.config.secrets.get index) =
          some (secretModePadded :: started.rawSecret index) := by
        rw [hex.decode_append _ _ _ (decode_padded hex), hsecret]
        rfl
      rw [started.linkMatches_iff index hlink hraw, hdomain, padded_link_iff]
      have hother : secretModePadded ≠ secretModeFaketls := by decide
      simp [faketlsHostname, hother]

end Started

/-- For every configuration that starts and every secret in it, the advertised
link matches the running listener exactly when the secret is advertisable. -/
theorem link_matches_listener {hex : Codec} (started : Started hex)
    (index : Fin started.config.secrets.length) :
    started.LinkMatches index ↔
      Advertisable started.listenFaketlsDomain (started.config.secrets.get index)
        (started.rawSecret index) := by
  cases hdomain : started.listenFaketlsDomain with
  | none => exact started.linkMatches_plain index hdomain
  | some domain => exact started.linkMatches_faketls index hdomain

/-- A plain primary secret and a second one that carries a hostname. -/
def mixedConfig : Config :=
  { secrets := ["2a519e5be6c3219c69879e5fa2a0eab8",
      "ee2a519e5be6c3219c69879e5fa2a0eab8612e7275"] }

/-- The listener runs the plain transport, while the link of the second secret
asks for FakeTLS with the hostname `a.ru`. -/
theorem mixed_link_mismatch :
    ∃ started : Started Foundation.Hex.standard,
      mixedConfig.withDefaultSecrets Foundation.Hex.standard (List.Vector.replicate 16 0) =
        some started ∧
      started.listenFaketlsDomain = none ∧
      ∃ index : Fin started.config.secrets.length, ∃ raw,
        started.linkSecretFor (started.config.secrets.get index) =
          some "ee2a519e5be6c3219c69879e5fa2a0eab8612e7275" ∧
        Foundation.Hex.standard.decode "ee2a519e5be6c3219c69879e5fa2a0eab8612e7275" = some raw ∧
        faketlsHostname raw = some (asBytes "a.ru") ∧ ¬ started.LinkMatches index := by
  refine ⟨_, rfl, rfl, ⟨1, by decide⟩, _, rfl, rfl, by decide, ?_⟩
  rintro ⟨link, raw, hlink, hraw, _, hhostname⟩
  cases hlink
  cases hraw
  revert hhostname
  decide

end TgWsProxy
