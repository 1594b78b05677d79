import TgWsProxy.Bridge.Transparency
import TgWsProxy.Client.Admission
import TgWsProxy.Crypto.RelayInit

/-!
# What a client asked for, and what it gets

A client names a transport and a data centre in its init, under a configured secret. The
handler reads them, chooses a route by them and writes them into the relay init, under the
key of the relay init. Here the three are compared: for every client that is bridged, the
one that Telegram decrypts is the one that the client encrypted, and the route was chosen
for it.
-/

namespace TgWsProxy.Client

open Foundation.Effect Foundation.Machine Foundation.Stream
open TgWsProxy.Bridge TgWsProxy.Crypto TgWsProxy.FakeTls TgWsProxy.Routing
open Foundation.Effect.Program (Guards Only Reaches Runs)
open Foundation.Hex (Codec)

/-! ## The index on its way -/

theorem i16ToLeBytes_i16FromLeBytes (low high : UInt8) :
    i16ToLeBytes (i16FromLeBytes low high) = [low, high] := by
  have hlow : (high.toBitVec ++ low.toBitVec).extractLsb' 0 8 = low.toBitVec := by
    apply BitVec.eq_of_getLsbD_eq
    intro i hi
    rw [BitVec.getLsbD_extractLsb', BitVec.getLsbD_append]
    simp [hi]
  have hhigh : (high.toBitVec ++ low.toBitVec).extractLsb' 8 8 = high.toBitVec := by
    apply BitVec.eq_of_getLsbD_eq
    intro i hi
    rw [BitVec.getLsbD_extractLsb', BitVec.getLsbD_append]
    simp [hi]
  change [UInt8.ofBitVec ((high.toBitVec ++ low.toBitVec).extractLsb' 0 8),
    UInt8.ofBitVec ((high.toBitVec ++ low.toBitVec).extractLsb' 8 8)] = _
  rw [hlow, hhigh]

theorem asBytes_of_fromBytes {bytes : Bytes} {proto : ProtoTag}
    (hproto : ProtoTag.fromBytes bytes = some proto) : bytes = proto.asBytes := by
  unfold ProtoTag.fromBytes at hproto
  split at hproto
  next heq =>
    cases hproto
    exact heq
  next =>
    split at hproto
    next heq =>
      cases hproto
      exact heq
    next =>
      split at hproto <;> cases hproto
      assumption

/-! ## Requests -/

/-- Transport and index, as they stand in an init that is decrypted with the cipher. -/
def requestIn (prim : Primitives) (cipher : AesCtr256) (init : Block 64) : Bytes :=
  (cipher.mask prim.ks init.toList).extract protoTagPos (dcIdxPos + 2)

theorem extract_request {plain : Bytes} (hplain : plain.length = 64) :
    plain.extract protoTagPos (dcIdxPos + 2) = plain.extract protoTagPos (protoTagPos + 4) ++
      [plain.getD dcIdxPos 0, plain.getD (dcIdxPos + 1) 0] := by
  have hrest : plain.drop dcIdxPos =
      plain.getD dcIdxPos 0 :: plain.getD (dcIdxPos + 1) 0 :: plain.drop (dcIdxPos + 2) := by
    have hlow : dcIdxPos < plain.length := by
      rw [hplain]
      decide
    have hhigh : dcIdxPos + 1 < plain.length := by
      rw [hplain]
      decide
    rw [List.drop_eq_getElem_cons hlow, List.drop_eq_getElem_cons hhigh]
    simp only [List.getD_eq_getElem?_getD, List.getElem?_eq_getElem hlow,
      List.getElem?_eq_getElem hhigh, Option.getD_some]
  have hsplit : (plain.drop protoTagPos).drop 4 = plain.drop dcIdxPos := List.drop_drop
  have hsum : dcIdxPos + 2 - protoTagPos = 4 + 2 := rfl
  have htag : protoTagPos + 4 - protoTagPos = 4 := rfl
  rw [List.extract_eq_take_drop, List.extract_eq_take_drop, hsum, htag, List.take_add, hsplit,
    hrest]
  rfl

theorem requestIn_of_parseHandshake {prim : Primitives} {init : Block 64} {secret : Bytes}
    {info : HandshakeInfo} (hparse : parseHandshake prim init secret = some info) :
    info.prekeyAndIv = prekeyAndIv init ∧ ∃ dcIdx : Int16,
      requestIn prim (handshakeCipher prim init secret) init =
        info.proto.asBytes ++ i16ToLeBytes dcIdx ∧
      info.dcId = dcIdx.toInt.natAbs ∧ info.isMedia = decide (dcIdx.toInt < 0) := by
  unfold parseHandshake at hparse
  simp only at hparse
  split at hparse
  next => cases hparse
  next proto hproto =>
    cases hparse
    refine ⟨rfl, _, ?_, rfl, rfl⟩
    rw [requestIn, extract_request (by simp), i16ToLeBytes_i16FromLeBytes]
    exact congrArg (· ++ _) (asBytes_of_fromBytes hproto)

theorem requestIn_of_generateRelayInit {prim : Primitives} {proto : ProtoTag} {dcIdx : Int16}
    {pad : Block 2} {draws : List (Block 64)} {packet : Block 64}
    (hgenerate : generateRelayInit prim proto dcIdx pad draws = some packet) :
    requestIn prim (relayCipher packet) packet = proto.asBytes ++ i16ToLeBytes dcIdx := by
  obtain ⟨rnd, -, rfl⟩ := generateRelayInit_eq_some hgenerate
  rw [requestIn, relayInitFrom_cipher, List.extract_eq_take_drop, relayInitFrom_decrypt]
  have hlength : (proto.asBytes ++ i16ToLeBytes dcIdx).length = dcIdxPos + 2 - protoTagPos := by
    rw [List.length_append, ProtoTag.asBytes_length, i16ToLeBytes_length]
    rfl
  exact List.take_left' hlength

/-! ## The stream behind the init -/

/-- The client sends the stream: as it is, or in the records behind a hello. -/
def Sends (domain : Option String) (source : Source UInt8) (stream : Bytes) : Prop :=
  match domain with
  | none => source.elements = stream
  | some _ => ∃ (hello : Record) (records : List Record),
      hello.payload.length ≤ maxInboundPayload ∧
      source.elements = hello.encode ++ wire records ∧
      (∀ record ∈ records, Admissible maxInboundPayload record) ∧ content records = stream

/-- The two ends of a client's socket, as the handler wraps them. -/
def socketOf (domain : Option String) (pending : PendingData) (reader : Source UInt8) :
    ClientReader × ClientWriter :=
  if domain.isSome then (.fakeTls reader pending, .fakeTls) else (.plain reader, .plain)

section Stream

variable {Ws Conn : Type} {hmac : Hmac} {width : PointerWidth} {secrets : List Bytes}
  {source : Source UInt8} {stream : Bytes} {trace : Trace (handlerSig Ws Conn)} {init : Block 64}
  {pending : PendingData} {reader : Source UInt8}

theorem acceptInboundFaketls_holds {domain : String}
    (hrun : Runs (acceptInboundFaketls hmac width secrets domain source) trace
      (some (init, pending, reader)))
    (hsends : Sends (some domain) source stream) (hlength : 64 ≤ stream.length) :
    ∃ later, stream = init.toList ++ later ∧ (ClientReader.fakeTls reader pending).Holds later := by
  obtain ⟨hello, records, hhello, hsource, hrecords, rfl⟩ := hsends
  obtain ⟨middle, hread, hmiddle⟩ := readTlsRecordBytes_encode hsource hhello
  obtain ⟨filled, rest, after, later, hfill, hfilled, hcarries, hsplit⟩ :=
    @fillHandshake_complete [] middle records (Nat.zero_le _) hmiddle hrecords hlength
  have hcollect : collectHandshake middle = some (handshakeBuf filled, rest, after) := by
    rw [collectHandshake, hfill]
  unfold acceptInboundFaketls at hrun
  rw [hread] at hrun
  dsimp only at hrun
  split at hrun
  next =>
    obtain ⟨-, hnone⟩ := Runs.of_pure hrun
    cases hnone
  next hello secret _ =>
    obtain ⟨_, _, flight, rfl, -, hwriting⟩ := Program.runs_bind_iff.mp hrun
    obtain ⟨sent, _, rfl, hlast⟩ := Runs.of_call hwriting
    cases sent with
    | false =>
        obtain ⟨-, hnone⟩ := Runs.of_pure hlast
        cases hnone
    | true =>
        obtain ⟨-, hsome⟩ := Runs.of_pure hlast
        cases hsome.trans hcollect
        rw [handshakeBuf_toList hfilled]
        exact ⟨_, hsplit, later, rfl, hcarries⟩

/-- Behind the init that was read, the reader holds the rest of the stream. -/
theorem readInboundHandshake_holds {domain : Option String}
    (hrun : Runs (readInboundHandshake hmac width secrets domain source) trace
      (some (init, pending, reader)))
    (hsends : Sends domain source stream) (hlength : 64 ≤ stream.length) :
    ∃ later, stream = init.toList ++ later ∧ (socketOf domain pending reader).1.Holds later := by
  unfold readInboundHandshake at hrun
  split at hrun
  next domain => exact acceptInboundFaketls_holds hrun hsends hlength
  next =>
    split at hrun
    next =>
      obtain ⟨-, hnone⟩ := Runs.of_pure hrun
      cases hnone
    next bytes rest hread =>
      obtain ⟨-, hsome⟩ := Runs.of_pure hrun
      cases hsome
      obtain ⟨hsource, hbytes⟩ := Source.elements_of_readExact hread
      rw [handshakeBuf_toList hbytes]
      exact ⟨_, hsends.symm.trans hsource, rfl⟩

end Stream

/-! ## The handler -/

/-- How a client is served: its stream begins with an init under a configured secret and the
session reads the rest, what Telegram decrypts from the relay init is the request that the
client encrypted, the route was chosen for this request, and each cipher is the one of the
other end. -/
structure Honoured {Ws Conn : Type} {hex : Codec} (prim : Primitives) (started : Started hex)
    (source : Source UInt8) (done : Trace (handlerSig Ws Conn)) (session : Session Ws Conn)
    (init : Block 64) (secret : Bytes) (dcIdx : Int16) : Prop where
  sent : SentInit started.listenFaketlsDomain source init
  stream : ∀ stream, Sends started.listenFaketlsDomain source stream → 64 ≤ stream.length →
    ∃ later, stream = init.toList ++ later ∧ session.reader.Holds later
  configured : secret ∈ started.normalizedSecrets
  asked : requestIn prim (handshakeCipher prim init secret) init =
    session.proto.asBytes ++ i16ToLeBytes dcIdx
  relayed : requestIn prim (relayCipher session.relayInit) session.relayInit =
    session.proto.asBytes ++ i16ToLeBytes dcIdx
  dc : session.dc = dcIdx.toInt.natAbs
  isMedia : session.isMedia = decide (dcIdx.toInt < 0)
  routed : ∃ before routing, done = before ++ routing.map (fun event =>
      ⟨.inr event.op, event.reply⟩) ∧
    Runs (Route.selectUpstream
      { config := started.config, dc := session.dc, isMedia := session.isMedia, dcIdx
        proto := session.proto }
      (started.config.dcTargetIp session.dc)) routing (some session.upstream)
  ciphers : session.ciphers =
    { cltDec := clientSend prim init secret
      cltEnc := clientReceive prim init secret
      tgEnc := peerReceive session.relayInit
      tgDec := peerSend session.relayInit }

section Handler

variable {Ws Conn : Type} {hex : Codec} {hmac : Hmac} {prim : Primitives} {width : PointerWidth}
  {started : Started hex} {source : Source UInt8}

variable (prim started source) in
/-- A bridge is started only for a client that is served as it asked. -/
def Honours (done : Trace (handlerSig Ws Conn)) (op : (handlerSig Ws Conn).Op) : Prop :=
  ∀ session, op = .inl (.bridge session) →
    ∃ init secret dcIdx, Honoured prim started source done session init secret dcIdx

/-- Not the bridge. -/
def Local : (handlerSig Ws Conn).Op → Prop
  | .inl (.bridge _) => False
  | _ => True

theorem honours_of_local (done : Trace (handlerSig Ws Conn)) (op : (handlerSig Ws Conn).Op)
    (hlocal : Local op) : Honours prim started source done op := by
  rintro session rfl
  exact hlocal.elim

theorem acceptInboundFaketls_local (secrets : List Bytes) (domain : String) :
    Only Local (acceptInboundFaketls hmac width secrets domain source : Handler Ws Conn _) := by
  unfold acceptInboundFaketls
  split
  next => exact .pure _
  next => exact .pure _
  next =>
    split
    next => exact .pure _
    next hello secret _ =>
      refine .bind ?_ fun flight => ?_
      · exact ⟨trivial, fun _ => ⟨trivial, fun _ => ⟨trivial, fun _ => trivial⟩⟩⟩
      · refine ⟨trivial, fun sent => ?_⟩
        cases sent with
        | false => exact .pure _
        | true => exact .pure _

theorem readInboundHandshake_local (secrets : List Bytes) (domain : Option String) :
    Only Local (readInboundHandshake hmac width secrets domain source : Handler Ws Conn _) := by
  unfold readInboundHandshake
  split
  next domain => exact acceptInboundFaketls_local secrets domain
  next =>
    split
    next => exact .pure _
    next => exact .pure _

theorem serveClient_honours {init : Block 64} {secret : Bytes} {info : HandshakeInfo}
    (hsent : SentInit started.listenFaketlsDomain source init)
    (hfind : findHandshake prim started.normalizedSecrets init = some (info, secret))
    {reader : ClientReader} (writer : ClientWriter)
    (hstream : ∀ stream, Sends started.listenFaketlsDomain source stream → 64 ≤ stream.length →
      ∃ later, stream = init.toList ++ later ∧ reader.Holds later)
    (done : Trace (handlerSig Ws Conn)) :
    Guards (Honours prim started source) (fun _ _ => True) done
      (serveClient prim started.config reader writer info secret) := by
  obtain ⟨found, hmem, hfound⟩ := List.exists_of_findSome?_eq_some hfind
  obtain ⟨_, hparse, hpair⟩ := Option.map_eq_some_iff.mp hfound
  cases hpair
  obtain ⟨hblock, dcIdx, hasked, hdc, hmedia⟩ := requestIn_of_parseHandshake hparse
  have hdrawing : Guards (Honours prim started source)
      (fun (_ : Trace (handlerSig Ws Conn)) (_ : List (Block 64) × Block 2) => True)
      done (perform .relayDraws) :=
    guards_perform (honours_of_local _ _ trivial) fun _ => trivial
  refine .bind hdrawing ?_
  rintro done ⟨draws, pad⟩ -
  dsimp only
  split
  next => exact .pure trivial
  next relayInit hgenerate =>
    rw [dcIndex_eq hdc hmedia] at hgenerate ⊢
    let route : Route :=
      { config := started.config, dc := info.dcId, isMedia := info.isMedia, dcIdx
        proto := info.proto }
    have hrouting : Guards (Honours prim started source)
        (fun (later : Trace (handlerSig Ws Conn)) (upstream : Option (Upstream Ws Conn)) =>
          ∃ routing, later = done ++ routing.map (fun event => ⟨.inr event.op, event.reply⟩) ∧
            Runs (route.selectUpstream (started.config.dcTargetIp info.dcId)) routing upstream)
        done (route.selectUpstream (started.config.dcTargetIp info.dcId)).inr :=
      .inr_of_runs (fun done op => honours_of_local done _ trivial)
        fun routing upstream hrun => ⟨routing, rfl, hrun⟩
    refine .bind hrouting ?_
    rintro later upstream ⟨routing, rfl, hrun⟩
    cases upstream with
    | none => exact .pure trivial
    | some upstream =>
        refine guards_perform ?_ fun _ => trivial
        intro session hop
        cases hop
        refine ⟨init, secret, dcIdx, hsent, hstream, hmem, hasked, ?_, hdc, hmedia,
          ⟨done, routing, rfl, hrun⟩, ?_⟩
        · exact requestIn_of_generateRelayInit hgenerate
        · rw [hblock]
          exact buildConnectionCiphers_eq prim init relayInit secret

theorem handleClient_honours :
    Guards (Honours prim started source)
      (fun (_ : Trace (handlerSig Ws Conn)) (_ : Unit) => True) []
      (handleClient hmac prim width started source) := by
  have hopening : Guards (Honours prim started source)
      (fun (_ : Trace (handlerSig Ws Conn)) result => ∀ init pending reader,
        result = some (init, pending, reader) → SentInit started.listenFaketlsDomain source init ∧
          ∀ stream, Sends started.listenFaketlsDomain source stream → 64 ≤ stream.length →
            ∃ later, stream = init.toList ++ later ∧
              (socketOf started.listenFaketlsDomain pending reader).1.Holds later) []
      (readInboundHandshake hmac width started.normalizedSecrets started.listenFaketlsDomain
        source) := by
    refine (readInboundHandshake_local _ _).guards honours_of_local ?_
    rintro trace result hrun init pending reader rfl
    have hopened :=
      (@readInboundHandshake_guards Ws Conn hex hmac prim width started source).of_runs hrun
    exact ⟨(hopened init pending reader rfl).2,
      fun stream hsends hlength => readInboundHandshake_holds hrun hsends hlength⟩
  refine .bind hopening ?_
  intro done result hopened
  cases result with
  | none => exact .pure trivial
  | some result =>
      obtain ⟨init, pending, reader⟩ := result
      obtain ⟨hsent, hstream⟩ := hopened init pending reader rfl
      dsimp only
      split
      next => exact ⟨honours_of_local _ _ trivial, fun _ => trivial⟩
      next info secret hfind => exact serveClient_honours hsent hfind _ hstream done

end Handler

end TgWsProxy.Client
