import TgWsProxy.Client.Reassembly
import TgWsProxy.Foundation.Guard

/-!
# What an unauthenticated peer sees

At every point of every connection: an upstream is asked for only after the
client's init decrypted to a protocol tag under a configured secret, a plain
listener has written nothing by then, and a FakeTLS listener writes one flight,
and only to a signed hello for its domain.
-/

namespace TgWsProxy.Client

open Foundation.Effect Foundation.Machine Foundation.Stream
open TgWsProxy.Crypto TgWsProxy.FakeTls
open Foundation.Effect.Program (Reaches Guards Runs)
open Foundation.Hex (Codec)

variable {Ws Conn : Type}

/-! ## Observations -/

/-- The calls that ask for an upstream: all of the routing, and the bridge. -/
def AsksUpstream : (handlerSig Ws Conn).Op → Prop
  | .inr _ => True
  | .inl (.bridge _) => True
  | .inl _ => False

def written? : (handlerSig Ws Conn).Op → Option Bytes
  | .inl (.write bytes) => some bytes
  | _ => none

/-- What was written to the client, call by call. -/
def writes (done : Trace (handlerSig Ws Conn)) : List Bytes :=
  done.filterMap fun event => written? event.op

theorem writes_append_of_quiet {op : (handlerSig Ws Conn).Op} (done : Trace (handlerSig Ws Conn))
    (reply : (handlerSig Ws Conn).Reply op) (hquiet : written? op = none) :
    writes (done ++ [⟨op, reply⟩]) = writes done := by
  simp [writes, hquiet]

/-- The tag of an init, decrypted under a secret. -/
def decryptedTag (prim : Primitives) (init : Block 64) (secret : Bytes) : Bytes :=
  let key := deriveKey prim (prekeyOf (prekeyAndIv init)) secret
  let cipher := makeCipher key (ivOf (prekeyAndIv init))
  (cipher.applyKeystream prim.ks init.toList).1.extract protoTagPos (protoTagPos + 4)

theorem tag_of_fromBytes {bytes : Bytes} {proto : ProtoTag}
    (hproto : ProtoTag.fromBytes bytes = some proto) :
    bytes ∈ [protoTagAbridged, protoTagIntermediate, protoTagSecure] := by
  unfold ProtoTag.fromBytes at hproto
  split at hproto
  next heq => simp [heq]
  next =>
    split at hproto
    next heq => simp [heq]
    next =>
      split at hproto
      next heq => simp [heq]
      next => cases hproto

/-- The init is accepted under a configured secret. -/
structure Authenticates (prim : Primitives) (secrets : List Bytes) (init : Block 64)
    (secret : Bytes) : Prop where
  configured : secret ∈ secrets
  tag : decryptedTag prim init secret ∈ [protoTagAbridged, protoTagIntermediate, protoTagSecure]

/-- The client sent the init: as the first bytes of a plain stream, or as the first
that the records after the hello carry. -/
def SentInit (domain : Option String) (source : Source UInt8) (init : Block 64) : Prop :=
  match domain with
  | none => init.toList <+: source.elements
  | some _ => ∃ (hello : Record) (records : List Record),
      hello.encode ++ wire records <+: source.elements ∧
      (∀ record ∈ records, Admissible maxInboundPayload record) ∧ init.toList <+: content records

/-- The first record is a hello for the domain that is signed with the secret. -/
structure SentHello (hmac : Hmac) (width : PointerWidth) (domain : String)
    (source : Source UInt8) (hello : FakeTlsClientHello) (secret : Bytes) : Prop where
  record : ∃ record : Record, record.encode <+: source.elements ∧
    SignedClientHello hmac record.encode secret ∧
    parseFaketlsClientHello hmac width record.encode secret = .ok (some hello)
  hostname : hello.hostname = some domain

/-- The bytes are the flight that answers the client's hello. -/
def Flight (hmac : Hmac) (width : PointerWidth) (secrets : List Bytes) (domain : String)
    (source : Source UInt8) (bytes : Bytes) : Prop :=
  ∃ hello secret keyShare cert, secret ∈ secrets ∧
    SentHello hmac width domain source hello secret ∧
    bytes = serverHello hmac secret hello keyShare cert

section Listener

variable {hex : Codec} (hmac : Hmac) (prim : Primitives) (width : PointerWidth)
  (started : Started hex) (source : Source UInt8)

/-- What the listener has written when the handshake is complete. -/
def Greeted (done : Trace (handlerSig Ws Conn)) : Prop :=
  match started.listenFaketlsDomain with
  | none => writes done = []
  | some domain => ∃ flight, writes done = [flight] ∧
      Flight hmac width started.normalizedSecrets domain source flight

/-- The handler may make this call after the calls in `done`. -/
structure Permitted (done : Trace (handlerSig Ws Conn)) (op : (handlerSig Ws Conn).Op) :
    Prop where
  plain : started.listenFaketlsDomain = none → writes done = [] ∧ written? op = none
  faketls : ∀ domain, started.listenFaketlsDomain = some domain →
    ∀ bytes, written? op = some bytes →
      writes done = [] ∧ Flight hmac width started.normalizedSecrets domain source bytes
  upstream : AsksUpstream op → Greeted hmac width started source done ∧
    ∃ init secret, SentInit started.listenFaketlsDomain source init ∧
      Authenticates prim started.normalizedSecrets init secret ∧
      ∀ session, op = .inl (.bridge session) → ∃ relayInit,
        session.ciphers = buildConnectionCiphers prim (prekeyAndIv init) secret relayInit

variable {hmac prim width started source}

/-- A call that neither writes nor asks for an upstream. -/
theorem Permitted.quiet {done : Trace (handlerSig Ws Conn)} {op : (handlerSig Ws Conn).Op}
    (hplain : started.listenFaketlsDomain = none → writes done = [])
    (hquiet : written? op = none) (hlocal : ¬ AsksUpstream op) :
    Permitted hmac prim width started source done op where
  plain := fun hnone => ⟨hplain hnone, hquiet⟩
  faketls := by
    intro domain _ bytes hbytes
    cases hquiet.symm.trans hbytes
  upstream := fun hasks => absurd hasks hlocal

theorem Greeted.writes_eq_nil {done : Trace (handlerSig Ws Conn)}
    (hgreeted : Greeted hmac width started source done)
    (hnone : started.listenFaketlsDomain = none) : writes done = [] := by
  rw [Greeted, hnone] at hgreeted
  exact hgreeted

/-- A call for an upstream, once the init was accepted. -/
theorem Permitted.accepted {done : Trace (handlerSig Ws Conn)} {op : (handlerSig Ws Conn).Op}
    {init : Block 64} {secret : Bytes} (hgreeted : Greeted hmac width started source done)
    (hinit : SentInit started.listenFaketlsDomain source init)
    (hauth : Authenticates prim started.normalizedSecrets init secret)
    (hquiet : written? op = none)
    (hsession : ∀ session, op = .inl (.bridge session) → ∃ relayInit,
      session.ciphers = buildConnectionCiphers prim (prekeyAndIv init) secret relayInit) :
    Permitted hmac prim width started source done op where
  plain := fun hnone => ⟨hgreeted.writes_eq_nil hnone, hquiet⟩
  faketls := by
    intro domain _ bytes hbytes
    cases hquiet.symm.trans hbytes
  upstream := fun _ => ⟨hgreeted, init, secret, hinit, hauth, hsession⟩

theorem Greeted.append {done : Trace (handlerSig Ws Conn)}
    (hgreeted : Greeted hmac width started source done) (op : (handlerSig Ws Conn).Op)
    (reply : (handlerSig Ws Conn).Reply op) (hquiet : written? op = none) :
    Greeted hmac width started source (done ++ [⟨op, reply⟩]) := by
  rw [Greeted, writes_append_of_quiet done reply hquiet]
  exact hgreeted

theorem guards_perform {allowed : Trace (handlerSig Ws Conn) → (handlerSig Ws Conn).Op → Prop}
    {done : Trace (handlerSig Ws Conn)} {op : Op Ws Conn}
    {post : Trace (handlerSig Ws Conn) → Reply op → Prop} (hallowed : allowed done (.inl op))
    (hpost : ∀ reply, post (done ++ [⟨.inl op, reply⟩]) reply) :
    Guards allowed post done (perform op) :=
  @Guards.perform (handlerSig Ws Conn) allowed done (.inl op) post hallowed hpost

/-! ## The handshake -/

theorem mem_of_findHello {record secret : Bytes} {secrets : List Bytes}
    {hello : FakeTlsClientHello}
    (hfind : findHello hmac width record secrets = .ok (some (hello, secret))) :
    secret ∈ secrets ∧ parseFaketlsClientHello hmac width record secret = .ok (some hello) := by
  induction secrets with
  | nil => cases hfind
  | cons first rest ih =>
      rw [findHello, bind_eq_ok] at hfind
      obtain ⟨parsed, hparse, hfind⟩ := hfind
      cases parsed with
      | some found =>
          cases hfind
          exact ⟨List.mem_cons_self, hparse⟩
      | none =>
          obtain ⟨hmem, hsecret⟩ := ih hfind
          exact ⟨List.mem_cons_of_mem first hmem, hsecret⟩

theorem sentHello_of_acceptedHello {domain : String} {secrets : List Bytes} {record : Record}
    {hello : FakeTlsClientHello} {secret : Bytes} (hfirst : record.encode <+: source.elements)
    (haccepted : acceptedHello hmac width secrets domain record.encode = some (hello, secret)) :
    secret ∈ secrets ∧ SentHello hmac width domain source hello secret := by
  unfold acceptedHello at haccepted
  split at haccepted
  next => cases haccepted
  next =>
    split at haccepted
    next => cases haccepted
    next => cases haccepted
    next hfind =>
      split at haccepted
      next => cases haccepted
      next hhostname =>
        cases haccepted
        obtain ⟨hmem, hparse⟩ := mem_of_findHello hfind
        exact ⟨hmem, ⟨record, hfirst, signed_of_parseFaketlsClientHello hparse, hparse⟩,
          not_not.mp hhostname⟩

/-- Building the flight draws random numbers and writes nothing. -/
theorem buildFaketlsServerHello_guards {domain : String} {hello : FakeTlsClientHello}
    {secret : Bytes} (hmem : secret ∈ started.normalizedSecrets)
    (hhello : SentHello hmac width domain source hello secret) :
    Guards (Permitted hmac prim width started source)
      (fun (done : Trace (handlerSig Ws Conn)) bytes => writes done = [] ∧
        Flight hmac width started.normalizedSecrets domain source bytes)
      [] (buildFaketlsServerHello hmac secret hello) := by
  have hdraw : ∀ (done : Trace (handlerSig Ws Conn)) op, writes done = [] → written? op = none →
      ¬ AsksUpstream op → Permitted hmac prim width started source done op :=
    fun done op hdone hquiet hlocal => .quiet (fun _ => hdone) hquiet hlocal
  refine ⟨hdraw _ _ rfl rfl not_false, fun keyShare => ⟨hdraw _ _ rfl rfl not_false, fun random =>
    ⟨hdraw _ _ rfl rfl not_false, fun cert => ⟨rfl, ?_⟩⟩⟩⟩
  exact ⟨hello, secret, keyShare, cert.toList, hmem, hhello, rfl⟩

/-- What holds when the handshake was read. -/
def Opened (hmac : Hmac) (width : PointerWidth) (started : Started hex) (source : Source UInt8)
    (done : Trace (handlerSig Ws Conn)) (result : Option (Block 64 × PendingData × Source UInt8)) :
    Prop :=
  ∀ init pending reader, result = some (init, pending, reader) →
    Greeted hmac width started source done ∧ SentInit started.listenFaketlsDomain source init

theorem opened_none (done : Trace (handlerSig Ws Conn)) :
    Opened hmac width started source done none := by
  intro init pending reader hresult
  cases hresult

theorem sentInit_of_collectHandshake {domain : String} {record : Record}
    {reader rest : Source UInt8} {init : Block 64} {pending : PendingData}
    (hsource : source.elements = record.encode ++ reader.elements)
    (hcollect : collectHandshake reader = some (init, pending, rest)) :
    SentInit (some domain) source init := by
  unfold collectHandshake at hcollect
  split at hcollect
  next => cases hcollect
  next filled _ _ hfill =>
    cases hcollect
    obtain ⟨hlength, records, hreader, hrecords, hcontent⟩ :=
      fillHandshake_sound (Nat.zero_le _) hfill
    refine ⟨record, records, ⟨rest.elements, ?_⟩, hrecords, ⟨pending.remaining, ?_⟩⟩
    · rw [hsource, hreader, List.append_assoc]
    · rw [handshakeBuf_toList hlength, ← hcontent, List.nil_append]

theorem acceptInboundFaketls_guards {domain : String}
    (hdomain : started.listenFaketlsDomain = some domain) :
    Guards (Permitted hmac prim width started source)
      (fun (done : Trace (handlerSig Ws Conn)) => Opened hmac width started source done) []
      (acceptInboundFaketls hmac width started.normalizedSecrets domain source) := by
  unfold acceptInboundFaketls
  split
  next => exact .pure (opened_none _)
  next => exact .pure (opened_none _)
  next bytes reader hread =>
    obtain ⟨record, rfl, -, hsource⟩ := readTlsRecordBytes_eq_some hread
    split
    next => exact .pure (opened_none _)
    next hello secret haccepted =>
      obtain ⟨hmem, hhello⟩ := sentHello_of_acceptedHello ⟨_, hsource.symm⟩ haccepted
      refine .bind (buildFaketlsServerHello_guards hmem hhello) ?_
      rintro done flight ⟨hdone, hflight⟩
      have hwrite : Permitted hmac prim width started source done (.inl (.write flight)) := by
        refine ⟨?_, ?_, False.elim⟩
        · intro hnone
          cases hdomain.symm.trans hnone
        · intro other hother bytes hbytes
          cases hdomain.symm.trans hother
          cases hbytes
          exact ⟨hdone, hflight⟩
      have hgreeted : ∀ sent : Bool, Greeted hmac width started source
          (done ++ [(⟨.inl (.write flight), sent⟩ : Event (handlerSig Ws Conn))]) := by
        intro sent
        rw [Greeted, hdomain, writes, List.filterMap_append, ← writes, hdone]
        exact ⟨flight, rfl, hflight⟩
      have hsending : Guards (Permitted hmac prim width started source)
          (fun (done : Trace (handlerSig Ws Conn)) (_ : Bool) =>
            Greeted hmac width started source done)
          done (perform (.write flight)) := guards_perform hwrite hgreeted
      refine .bind hsending ?_
      intro done sent hgreeted
      cases sent with
      | false => exact .pure (opened_none _)
      | true =>
          intro init pending rest hresult
          rw [hdomain]
          exact ⟨hgreeted, sentInit_of_collectHandshake hsource hresult⟩

theorem readInboundHandshake_guards :
    Guards (Permitted hmac prim width started source)
      (fun (done : Trace (handlerSig Ws Conn)) => Opened hmac width started source done) []
      (readInboundHandshake hmac width started.normalizedSecrets started.listenFaketlsDomain
        source) := by
  unfold readInboundHandshake
  split
  next domain hdomain => exact acceptInboundFaketls_guards hdomain
  next hnone =>
    split
    next => exact .pure (opened_none _)
    next bytes reader hread =>
      obtain ⟨hsource, hlength⟩ := Source.elements_of_readExact hread
      intro init _ _ hresult
      cases hresult
      refine ⟨?_, ?_⟩
      · rw [Greeted, hnone]
        rfl
      · rw [hnone, SentInit, handshakeBuf_toList hlength, hsource]
        exact List.prefix_append _ _

/-! ## The session -/

theorem authenticates_of_findHandshake {secrets : List Bytes} {init : Block 64}
    {info : HandshakeInfo} {secret : Bytes}
    (hfind : findHandshake prim secrets init = some (info, secret)) :
    Authenticates prim secrets init secret ∧ info.prekeyAndIv = prekeyAndIv init := by
  obtain ⟨found, hmem, hparse⟩ := List.exists_of_findSome?_eq_some hfind
  obtain ⟨_, hinfo, hpair⟩ := Option.map_eq_some_iff.mp hparse
  cases hpair
  unfold parseHandshake at hinfo
  rw [← prekeyOf_prekeyAndIv, ← ivOf_prekeyAndIv] at hinfo
  simp only at hinfo
  split at hinfo
  next => cases hinfo
  next proto hproto =>
    cases hinfo
    exact ⟨⟨hmem, tag_of_fromBytes hproto⟩, rfl⟩

/-- Serving a client whose init was accepted. -/
theorem serveClient_guards {init : Block 64} {secret : Bytes} {info : HandshakeInfo}
    (hinit : SentInit started.listenFaketlsDomain source init)
    (hauth : Authenticates prim started.normalizedSecrets init secret)
    (hinfo : info.prekeyAndIv = prekeyAndIv init) (reader : ClientReader) (writer : ClientWriter)
    {done : Trace (handlerSig Ws Conn)} (hdone : Greeted hmac width started source done) :
    Guards (Permitted hmac prim width started source) (fun _ _ => True) done
      (serveClient prim started.config reader writer info secret) := by
  have hdrawing : Guards (Permitted hmac prim width started source)
      (fun (done : Trace (handlerSig Ws Conn)) (_ : List (Block 64) × Block 2) =>
        Greeted hmac width started source done)
      done (perform .relayDraws) :=
    guards_perform (.quiet hdone.writes_eq_nil rfl not_false) fun reply =>
      hdone.append (.inl .relayDraws) reply rfl
  refine .bind hdrawing ?_
  rintro done ⟨draws, pad⟩ hdone
  dsimp only
  split
  next => exact .pure trivial
  next relayInit hrelay =>
    -- No call of the routing writes to the client.
    have hrouting : ∀ program : Routing.M Ws Conn (Option (Routing.Upstream Ws Conn)),
        Guards (Permitted hmac prim width started source)
          (fun (done : Trace (handlerSig Ws Conn)) (_ : Option (Routing.Upstream Ws Conn)) =>
            Greeted hmac width started source done) done program.inr := by
      intro program
      refine .inr ?_ ?_ program hdone
      · intro done op hdone
        exact .accepted hdone hinit hauth rfl fun session hop => by cases hop
      · intro done op reply hdone
        exact hdone.append (.inr op) reply rfl
    refine .bind (hrouting _) ?_
    intro done upstream hdone
    cases upstream with
    | none => exact .pure trivial
    | some upstream =>
        refine guards_perform (.accepted hdone hinit hauth rfl ?_) fun _ => trivial
        intro session hop
        cases hop
        exact ⟨relayInit, by rw [hinfo]⟩

theorem handleClient_guards :
    Guards (Permitted hmac prim width started source)
      (fun (_ : Trace (handlerSig Ws Conn)) (_ : Unit) => True) []
      (handleClient hmac prim width started source) := by
  refine .bind readInboundHandshake_guards ?_
  intro done result hopened
  cases result with
  | none => exact .pure trivial
  | some result =>
      obtain ⟨init, pending, reader⟩ := result
      obtain ⟨hgreeted, hinit⟩ := hopened init pending reader rfl
      dsimp only
      split
      next =>
        exact guards_perform (.quiet hgreeted.writes_eq_nil rfl not_false) fun _ => trivial
      next info secret hfind =>
        obtain ⟨hauth, hinfo⟩ := authenticates_of_findHandshake hfind
        exact serveClient_guards hinit hauth hinfo _ _ hgreeted

/-- Nothing happens for an unauthenticated peer: whatever the client sends and however
it arrives, wherever the handler stands in a run, its next call is permitted. -/
theorem unauthenticated_gets_nothing (hmac : Hmac) (prim : Primitives) (width : PointerWidth)
    (started : Started hex) (source : Source UInt8) {done : Trace (handlerSig Ws Conn)}
    {op : (handlerSig Ws Conn).Op} {next : (handlerSig Ws Conn).Reply op → Handler Ws Conn Unit}
    (hreaches : Reaches (handleClient hmac prim width started source) done (.call op next)) :
    Permitted hmac prim width started source done op :=
  handleClient_guards.allowed_of_reaches hreaches

end Listener

/-- Primitives that leave every byte as it is. -/
def zeroPrimitives : Primitives where
  keystream := fun _ _ _ => 0
  sha256 := fun _ => List.Vector.replicate 32 0

def sampleStarted : Started Foundation.Hex.standard where
  config :=
    { secrets := [""], listenFaketlsDomain := some "a", dcIp := [(2, "149.154.167.220")] }
  normalizedSecrets := [[]]
  decoded := by decide

/-- An init for the second data centre. -/
def sampleInit : Bytes := List.replicate 56 0 ++ protoTagAbridged ++ [2, 0] ++ [0, 0]

def sampleInfo : HandshakeInfo where
  dcId := 2
  isMedia := false
  proto := .abridged
  prekeyAndIv := List.Vector.replicate 48 0

def sampleInitRecord : Record where
  recordType := tlsRecordApplicationData
  version := tlsVersion12
  payload := sampleInit
  fits := by decide

theorem findHandshake_sampleInit :
    findHandshake zeroPrimitives [[]] (handshakeBuf sampleInit) = some (sampleInfo, []) := by
  set_option maxRecDepth 8000 in
  rfl

/-- The hello and the init in one piece. -/
def sampleSource : Source UInt8 := [sampleHello.encode ++ wire [sampleInitRecord]]

theorem sampleSource_handshake :
    ∃ trace pending reader, Runs (readInboundHandshake zeroHmac .bits64 [[]] (some "a")
      sampleSource : Handler Unit Unit (Option (Block 64 × PendingData × Source UInt8))) trace
      (some (handshakeBuf sampleInit, pending, reader)) := by
  have hsource : Source.elements sampleSource = sampleHello.encode ++ wire [sampleInitRecord] :=
    List.append_nil _
  obtain ⟨middle, hread, hmiddle⟩ :=
    readTlsRecordBytes_encode hsource sampleHello_accepted.length_le
  obtain ⟨_, _, haccepted⟩ := sampleHello_accepted.acceptedHello
  obtain ⟨trace, result, hrun, hsent⟩ := exists_run_sent hread haccepted
  have hadmissible : ∀ record ∈ [sampleInitRecord], Admissible maxInboundPayload record :=
    List.forall_mem_singleton.mpr ⟨.inl ⟨rfl, by decide⟩, by decide⟩
  obtain ⟨init, pending, reader, later, hfill, hinit, -, hsplit⟩ :=
    @fillHandshake_complete [] middle _ (Nat.zero_le _) hmiddle hadmissible (by decide)
  have heq : init = sampleInit := by
    have hbeginning : init <+: sampleInit := ⟨_, hsplit.symm⟩
    exact hbeginning.eq_of_length hinit
  have hresult := acceptInboundFaketls_result hread haccepted hrun hsent
  rw [collectHandshake, hfill, heq] at hresult
  subst hresult
  exact ⟨trace, pending, reader, hrun⟩

theorem unauthenticated_gets_nothing_sampleSource :
    ∃ done op next, Reaches (handleClient zeroHmac zeroPrimitives .bits64 sampleStarted
        sampleSource : Handler Unit Unit Unit) done (.call (.inr op) next) ∧
      Permitted zeroHmac zeroPrimitives .bits64 sampleStarted sampleSource done (.inr op) := by
  obtain ⟨opening, pending, reader, hopening⟩ := sampleSource_handshake
  have hserving : ∃ done op next, Reaches (serveClient zeroPrimitives sampleStarted.config
      (.fakeTls reader pending) .fakeTls sampleInfo [] : Handler Unit Unit Unit) done
      (.call (.inr op) next) :=
    ⟨_, _, _, .call (([List.Vector.replicate 64 1], List.Vector.replicate 2 0) :
      List (Block 64) × Block 2) (.refl _)⟩
  obtain ⟨serving, op, next, hserving⟩ := hserving
  have hreaches : Reaches (handleClient zeroHmac zeroPrimitives .bits64 sampleStarted sampleSource :
      Handler Unit Unit Unit) (opening ++ serving) (.call (.inr op) next) := by
    refine .bind hopening ?_
    have hfind : findHandshake zeroPrimitives sampleStarted.normalizedSecrets
        (handshakeBuf sampleInit) = some (sampleInfo, []) := findHandshake_sampleInit
    simp only [hfind]
    exact hserving
  exact ⟨_, op, next, hreaches, unauthenticated_gets_nothing _ _ _ _ _ hreaches⟩

end TgWsProxy.Client
