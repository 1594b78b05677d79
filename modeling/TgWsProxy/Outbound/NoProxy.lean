import Mathlib.Data.List.Infix
import TgWsProxy.Foundation.Text

/-!
# The NO_PROXY list

A list is checked by one function and made into matchers by another, which relies on the
check in three `expect`s and in its slices. Addresses and networks are the ones of the
standard library and of `ipnet`; what these accept, and which addresses a network contains,
is a parameter.
-/

namespace TgWsProxy.Outbound

open Foundation

/-- Why a function returns no value: it panics, or its result is an `Err`. -/
inductive Stop
  | panic (reason : String)
  | err (message : String)
  deriving DecidableEq, Repr

inductive IpAddr
  | v4 (bits : BitVec 32)
  | v6 (bits : BitVec 128)
  deriving DecidableEq, Repr

def IpAddr.isLoopback : IpAddr → Bool
  | .v4 bits => bits >>> 24 == 127
  | .v6 bits => bits == 1

/-- A network: an address and how many of its leading bits count. -/
inductive IpNet
  | v4 (bits : BitVec 32) (length : Fin 33)
  | v6 (bits : BitVec 128) (length : Fin 129)
  deriving DecidableEq, Repr

/-- `str::parse` for addresses and networks, and `IpNet::contains`. -/
structure AddressReader where
  ipAddr : Text → Option IpAddr
  ipv6Addr : Text → Option (BitVec 128)
  ipNet : Text → Option IpNet
  contains : IpNet → IpAddr → Bool

inductive NoProxyMatcher
  | address (ip : IpAddr) (port : Nat)
  | network (net : IpNet)
  | host (suffix : Text) (port : Nat) (includeApex : Bool)
  | wildcard
  deriving DecidableEq, Repr

/-- `str::parse::<u16>`. -/
def parseU16 (text : Text) : Option Nat := text.parseUnsigned 10 65535

def expect {α : Type} (reason : String) : Option α → Except Stop α
  | some value => .ok value
  | none => .error (.panic reason)

def outOfRange : String := "byte index is out of range or not a char boundary"

/-- `&text[..offset]`. -/
def sliceTo (text : Text) (offset : Nat) : Except Stop Text :=
  (expect outOfRange (text.splitAtByte offset)).map Prod.fst

/-- `&text[offset..]`. -/
def sliceFrom (text : Text) (offset : Nat) : Except Stop Text :=
  (expect outOfRange (text.splitAtByte offset)).map Prod.snd

/-- The entries of a list. -/
def entries (raw : Text) : List Text :=
  ((raw.splitOn ',').map Text.trim).filter fun entry => !entry.isEmpty

/-! ## Matchers -/

section Parse

variable (reader : AddressReader)

/-- The port behind a bracketed address. -/
def bracketedPort (rest : Text) : Except Stop Nat :=
  match [':'].isPrefixOf? rest with
  | some digits => expect "validated NO_PROXY port" (parseU16 digits)
  | none => pure 0

/-- The host and the port of an entry; without a port it is 0. -/
def hostAndPort (entry : Text) : Except Stop (Text × Nat) :=
  match ['['].isPrefixOf? entry with
  | some bracketed => do
      let stop ← expect "validated bracketed IPv6" (Text.find ']' bracketed)
      let host ← sliceTo bracketed stop
      let rest ← sliceFrom bracketed (stop + 1)
      let port ← bracketedPort rest
      pure (host, port)
  | none =>
      if ':' ∈ entry then do
        let (host, digits) ← expect "validated host:port" (Text.rsplitOnce ':' entry)
        let port ← expect "validated NO_PROXY port" (parseU16 digits)
        pure (host, port)
      else pure (entry, 0)

/-- `host` without a leading `*.` or dot, if it has one. -/
def stripWildcard (host : Text) : Option Text :=
  (['*', '.'].isPrefixOf? host).or (['.'].isPrefixOf? host)

def hostMatcher (host : Text) (port : Nat) : NoProxyMatcher :=
  match reader.ipAddr host with
  | some ip => .address ip port
  | none =>
      match stripWildcard host with
      | some suffix => .host suffix port false
      | none => .host host port true

def parseNoProxyMatcher (entry : Text) : Except Stop NoProxyMatcher :=
  if entry = ['*'] then pure .wildcard
  else match reader.ipNet entry with
    | some net => pure (.network net)
    | none => do
        let (host, port) ← hostAndPort entry
        pure (hostMatcher reader host port)

/-- `NoProxy::from_validated`. -/
def fromValidated (raw : Text) : Except Stop (List NoProxyMatcher) :=
  (entries raw).mapM (parseNoProxyMatcher reader)

end Parse

/-! ## Matching -/

section Matches

def hostMatches (host suffix : Text) (includeApex : Bool) : Bool :=
  if includeApex && host.eqIgnoreAsciiCase suffix then true
  else if host.byteLength < suffix.byteLength then false
  else
    let start := host.byteLength - suffix.byteLength
    decide (start > 0) && host.bytes[start - 1]? == some (UInt8.ofNat '.'.toNat) &&
      match host.splitAtByte start with
      | some (_, tail) => tail.eqIgnoreAsciiCase suffix
      | none => false

/-- The target without its brackets. -/
def bareHost (targetHost : Text) : Text :=
  ((['['].isPrefixOf? targetHost).bind fun host => [']'].isSuffixOf? host).getD targetHost

def portMatches (port targetPort : Nat) : Bool := port == 0 || port == targetPort

def NoProxyMatcher.matches (reader : AddressReader) (matcher : NoProxyMatcher) (host : Text)
    (targetIp : Option IpAddr) (targetPort : Nat) : Bool :=
  match matcher with
  | .address ip port => some ip == targetIp && portMatches port targetPort
  | .network net => targetIp.any (reader.contains net)
  | .host suffix port includeApex =>
      portMatches port targetPort && hostMatches host suffix includeApex
  | .wildcard => true

/-- `NoProxy::matches`. -/
def noProxyMatches (reader : AddressReader) (matchers : List NoProxyMatcher) (targetHost : Text)
    (targetPort : Nat) : Bool :=
  let host := bareHost targetHost
  let targetIp := reader.ipAddr host
  if targetIp.any IpAddr.isLoopback then true
  else matchers.any fun matcher => matcher.matches reader host targetIp targetPort

end Matches

/-! ## Validation -/

section Validate

variable (reader : AddressReader)

def validateNoProxyPort (port : Text) : Except Stop Unit :=
  if port.isEmpty || (parseU16 port).isNone then .error (.err "invalid NO_PROXY entry port")
  else pure ()

/-- `u8::is_ascii_alphanumeric`. -/
def isAsciiAlphanumeric (byte : UInt8) : Bool :=
  (48 ≤ byte && byte ≤ 57) || (65 ≤ byte && byte ≤ 90) || (97 ≤ byte && byte ≤ 122)

def invalidLabel (label : Text) : Bool :=
  label.isEmpty || ['-'].isPrefixOf label || ['-'].isSuffixOf label ||
    !label.bytes.all fun byte => isAsciiAlphanumeric byte || byte == 45

def validateHostnameNoProxy (host : Text) : Except Stop Unit :=
  let host := (stripWildcard host).getD host
  if host.isEmpty || host.any (fun c => c ∈ ['/', '[', ']', ':']) ||
      (host.splitOn '.').any invalidLabel then
    .error (.err "invalid NO_PROXY host entry")
  else pure ()

def invalidBracketed : Stop := .err "invalid bracketed IPv6 NO_PROXY entry"

def validateBracketedPort (rest : Text) : Except Stop Unit :=
  if rest.isEmpty then pure ()
  else match [':'].isPrefixOf? rest with
    | some port => validateNoProxyPort port
    | none => .error invalidBracketed

def validateBracketedIpv6NoProxy (entry : Text) : Except Stop Unit :=
  match Text.find ']' entry with
  | none => .error invalidBracketed
  | some stop => do
      let inner ← expect outOfRange (entry.slice 1 stop)
      match reader.ipv6Addr inner with
      | none => .error invalidBracketed
      | some _ => do
          let rest ← sliceFrom entry (stop + 1)
          validateBracketedPort rest

/-- The branch for an entry with a colon and without brackets. -/
def validateHostAndPort (entry : Text) : Except Stop Unit :=
  match Text.rsplitOnce ':' entry with
  | none => .error (.err "invalid NO_PROXY entry")
  | some (host, port) =>
      if ':' ∈ host then .error (.err "IPv6 NO_PROXY entries with ports must use brackets")
      else do
        validateHostnameNoProxy host
        validateNoProxyPort port

def validateNoProxyEntry (entry : Text) : Except Stop Unit :=
  if entry = ['*'] then pure ()
  else if [':', '/', '/'] <:+: entry then
    .error (.err "NO_PROXY entries must not include a URL scheme")
  else if (reader.ipNet entry).isSome then pure ()
  else if ['['].isPrefixOf entry then validateBracketedIpv6NoProxy reader entry
  else if '/' ∈ entry then .error (.err "invalid NO_PROXY CIDR entry")
  else if ':' ∈ entry then validateHostAndPort entry
  else validateHostnameNoProxy entry

def validateEntries : List Text → Except Stop Unit
  | [] => pure ()
  | entry :: rest => do
      validateNoProxyEntry reader entry
      validateEntries rest

def validateNoProxy (raw : Text) : Except Stop Unit := validateEntries reader (entries raw)

end Validate

end TgWsProxy.Outbound
