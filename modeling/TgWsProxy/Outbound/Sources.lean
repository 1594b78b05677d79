import TgWsProxy.Outbound.NoProxy

/-!
# The sources of the outbound proxy

The proxy and the NO_PROXY list come from explicit values or from the environment. URLs
are read, and their escapes decoded, by libraries; what they return is a parameter.
-/

namespace TgWsProxy.Outbound

open Foundation

inductive ProxyKind
  | http
  | socks5 (remoteDns : Bool)
  deriving DecidableEq, Repr

structure ProxyConfig where
  kind : ProxyKind
  host : Text
  port : Nat
  username : Option Text
  password : Option Text
  deriving DecidableEq, Repr

structure OutboundConfig where
  proxy : Option ProxyConfig
  noProxy : Option (List NoProxyMatcher)
  deriving DecidableEq, Repr

/-- What the code reads of a parsed URL. -/
structure Url where
  scheme : Text
  host : Option Text
  port : Option Nat
  username : Text
  password : Option Text
  path : Text
  query : Option Text
  fragment : Option Text

/-- `Url::parse` and `percent_decode_str`. -/
structure UrlReader where
  parse : Text → Option Url
  percentDecode : Text → List UInt8

/-! ## Proxy URLs -/

section Userinfo

variable (urls : UrlReader)

def decodeRequiredUserinfo (value : Text) : Except Stop Text :=
  match String.fromUTF8? ⟨(urls.percentDecode value).toArray⟩ with
  | some text => pure text.toList
  | none => .error (.err "proxy URL userinfo is not valid UTF-8")

def decodeUserinfo (value : Text) : Except Stop (Option Text) :=
  if value.isEmpty then pure none else (decodeRequiredUserinfo urls value).map some

def decodePassword : Option Text → Except Stop (Option Text)
  | some password => (decodeRequiredUserinfo urls password).map some
  | none => pure none

end Userinfo

def validateProxyUrlShape (url : Url) : Except Stop Unit :=
  if !(url.path.isEmpty || url.path == ['/']) || url.query.isSome || url.fragment.isSome then
    .error (.err "outbound proxy URL must not include a path, query string or fragment")
  else pure ()

def proxyKind (scheme : String) : Except Stop ProxyKind :=
  match scheme with
  | "http" => pure .http
  | "socks5" => pure (.socks5 false)
  | "socks5h" => pure (.socks5 true)
  | "https" =>
      .error (.err "HTTPS outbound proxy URLs are not supported; use an http:// CONNECT proxy")
  | scheme => .error (.err ("unsupported outbound proxy scheme: " ++ scheme))

def defaultPort : ProxyKind → Nat
  | .http => 80
  | .socks5 _ => 1080

def orErr {α : Type} (message : String) : Option α → Except Stop α
  | some value => .ok value
  | none => .error (.err message)

section Select

variable (urls : UrlReader)

/-- `ProxyConfig::parse`. -/
def parseProxy (raw : Text) : Except Stop ProxyConfig := do
  let url ← orErr "invalid outbound proxy URL" (urls.parse raw)
  validateProxyUrlShape url
  let kind ← proxyKind (String.ofList (url.scheme.map Char.toLower))
  let host ← orErr "outbound proxy URL must include a host" url.host
  let username ← decodeUserinfo urls url.username
  let password ← decodePassword urls url.password
  if username.isNone && password.isSome then
    .error (.err "proxy URL password requires a username")
  else pure ⟨kind, host, url.port.getD (defaultPort kind), username, password⟩

def isDirectMarker (value : Text) : Bool :=
  let marker := String.ofList (value.trim.map Char.toLower)
  marker == "direct" || marker == "none" || marker == "off"

/-- The loop over the environment variables: the first one that names a usable proxy, or
an error that names the first unusable one. -/
def selectEnvProxy : List (String × Option Text) → Option String →
    Except Stop (Option ProxyConfig)
  | [], none => pure none
  | [], some firstError =>
      .error (.err ("no supported outbound proxy URL found in environment (" ++ firstError ++ ")"))
  | (_, none) :: rest, firstError => selectEnvProxy rest firstError
  | (name, some value) :: rest, firstError =>
      if value.trim.isEmpty then selectEnvProxy rest firstError
      else if isDirectMarker value.trim then pure none
      else match parseProxy urls value.trim with
        | .ok proxy => pure (some proxy)
        | .error (.panic reason) => .error (.panic reason)
        | .error (.err message) =>
            selectEnvProxy rest (firstError.or (some (name ++ ": " ++ message)))

def proxyVariables : List String :=
  ["HTTPS_PROXY", "https_proxy", "ALL_PROXY", "all_proxy", "HTTP_PROXY", "http_proxy"]

def selectProxy (explicit : Option Text) (useEnv : Bool) (envGet : String → Option Text) :
    Except Stop (Option ProxyConfig) :=
  match explicit.filter fun value => !value.trim.isEmpty with
  | some value =>
      if isDirectMarker value.trim then pure none
      else (parseProxy urls value.trim).map some
  | none =>
      if !useEnv then pure none
      else selectEnvProxy urls (proxyVariables.map fun name => (name, envGet name)) none

end Select

def firstNonEmpty (values : List (Option Text)) : Option Text :=
  (values.reduceOption.map Text.trim).find? fun value => !value.isEmpty

def selectNoProxy (explicit : Option Text) (useEnv : Bool) (envGet : String → Option Text) :
    Option Text :=
  match explicit with
  | some value => some value.trim
  | none => if !useEnv then none else firstNonEmpty [envGet "NO_PROXY", envGet "no_proxy"]

/-! ## The configuration -/

/-- The list of a proxy: checked first and made into matchers then. -/
def noProxyFrom (reader : AddressReader) (source : Option Text) :
    Except Stop (Option (List NoProxyMatcher)) :=
  match source.filter fun raw => !raw.isEmpty with
  | some raw => do
      validateNoProxy reader raw
      let matchers ← fromValidated reader raw
      pure (some matchers)
  | none => pure none

/-- `OutboundConfig::from_sources_with_env`. -/
def fromSourcesWithEnv (urls : UrlReader) (reader : AddressReader)
    (outboundProxy noProxy : Option Text) (useEnv : Bool) (envGet : String → Option Text) :
    Except Stop OutboundConfig := do
  let proxy ← selectProxy urls outboundProxy useEnv envGet
  match proxy with
  | some proxy => do
      let matchers ← noProxyFrom reader (selectNoProxy noProxy useEnv envGet)
      pure ⟨some proxy, matchers⟩
  | none => pure ⟨none, none⟩

end TgWsProxy.Outbound
