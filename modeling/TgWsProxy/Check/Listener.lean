import TgWsProxy.Check.Verdict
import TgWsProxy.Relay.Agreement
import TgWsProxy.Session.Bridges

/-!
# The probe of the own listener

With `--check-listener` the process connects to itself as a client. The probe keeps its
connection open while it waits, so it can only pass if the request goes through without the
end of the stream pushing it; and it passes exactly when the data centre answered with
`resPQ`.
-/

namespace TgWsProxy.Check

open Foundation.Effect Foundation.Keystream Foundation.Machine Foundation.Stream
open TgWsProxy.Crypto TgWsProxy.FakeTls TgWsProxy.Client TgWsProxy.Session TgWsProxy.Splitter
open Bridge (WsFraming)
open Foundation.Effect.Program (Runs)
open Foundation.Hex (Codec)
open Relay (Draws Framing clientHandshake clientHandshake_parses)

/-! ## The answer -/

/-- What is read is the beginning of what arrives, in whatever pieces. -/
theorem readHeader_eq (filled : Bytes) (stream : Stream)
    (hfilled : filled.length ≤ frameHeaderLen) :
    readHeader filled stream =
      ((filled ++ stream.source.elements).take frameHeaderLen,
        if frameHeaderLen ≤ (filled ++ stream.source.elements).length then .done
        else stream.ending.read) := by
  fun_induction readHeader filled stream with
  | case1 filled stream hshort source hread =>
      obtain ⟨-, hempty⟩ := @Source.elements_of_read _ _ stream.source (Nat.sub_pos_of_lt hshort)
      rw [hempty (by rw [hread]), List.append_nil, List.take_of_length_le hfilled,
        if_neg (Nat.not_le.mpr hshort)]
  | case2 filled stream hshort byte bytes source hread ih =>
      obtain ⟨helements, -⟩ := @Source.elements_of_read _ _ stream.source (Nat.sub_pos_of_lt hshort)
      have hlength := Source.length_read_le (frameHeaderLen - filled.length) stream.source
      rw [hread] at helements hlength
      have hfits : (filled ++ byte :: bytes).length ≤ frameHeaderLen := by
        rw [List.length_append]
        exact (Nat.le_sub_iff_add_le' hfilled).mp hlength
      rw [ih hfits, helements, List.append_assoc]
  | case3 filled stream hfull =>
      have hall : filled.length = frameHeaderLen := by omega
      rw [List.take_append_of_le_length (Nat.le_of_eq hall.symm), List.take_of_length_le hfilled,
        if_pos (by rw [List.length_append]; omega)]

theorem replyIsResPq_take (plain : Bytes) :
    replyIsResPq (plain.take frameHeaderLen) = replyIsResPq plain := by
  unfold replyIsResPq
  rw [List.take_take, Nat.min_self, List.length_take]
  by_cases hshort : plain.length < frameHeaderLen
  · rw [if_pos hshort, if_pos (Nat.lt_of_le_of_lt (Nat.min_le_right _ _) hshort)]
  · rw [if_neg hshort, if_neg (by omega)]

/-- The answers with which a probe passes. -/
def Answers (plain : Bytes) : Prop :=
  frameHeaderLen ≤ plain.length ∧ plain.take 4 ≠ [4, 0, 0, 0] ∧ replyIsResPq plain = true

theorem judgeReply_eq_ok {peer : String} {timeout : Nat} {dec : AesCtr256} {prim : Primitives}
    {stream : Stream} {plain : Bytes} (hstream : stream.source.elements = dec.mask prim.ks plain) :
    judgeReply peer timeout dec prim (readHeader [] stream) = .ok () ↔ Answers plain := by
  rw [readHeader_eq [] stream (Nat.zero_le _), List.nil_append, hstream, Cipher.mask_take,
    Cipher.mask_length]
  unfold judgeReply
  simp only [Cipher.mask_mask, Cipher.mask_length]
  rcases Nat.lt_or_ge plain.length frameHeaderLen with hshort | hlong
  · have hno : ¬ Answers plain := fun hanswers => absurd hanswers.1 (Nat.not_le.mpr hshort)
    have htake : (plain.take frameHeaderLen).length < frameHeaderLen := by
      rw [List.length_take]
      exact Nat.lt_of_le_of_lt (Nat.min_le_right _ _) hshort
    rw [if_neg (Nat.not_le.mpr hshort), iff_false_right hno]
    cases stream.ending with
    | failed error => exact nofun
    | silent => exact nofun
    | closed =>
        simp only [Ending.read, htake, if_true]
        split
        · exact nofun
        · split <;> exact nofun
  · have htake : (plain.take frameHeaderLen).length = frameHeaderLen :=
      List.length_take_of_le hlong
    have hfour : (plain.take frameHeaderLen).take 4 = plain.take 4 := by
      rw [List.take_take]
      rfl
    rw [if_pos hlong]
    simp only [htake, hfour, replyIsResPq_take, Answers, hlong, true_and]
    rw [if_neg (by decide)]
    by_cases herror : plain.take 4 = [4, 0, 0, 0]
    · rw [if_pos ⟨by decide, herror⟩]
      simp [herror]
    · rw [if_neg (fun hboth => herror hboth.2), if_neg (Nat.lt_irrefl _)]
      cases replyIsResPq plain <;> simp [herror]

/-! ## The request -/

/-- The request is one packet, and nothing stands behind it. -/
theorem expectedFlush_request (unixtime : UInt64) (nonce : Block 16) {wire : Bytes}
    (hwire : wire.length = (buildReqPqMulti unixtime nonce).length) :
    (layout .paddedIntermediate (buildReqPqMulti unixtime nonce)).expectedFlush wire = [] := by
  have hlength : (buildReqPqMulti unixtime nonce).length = 44 := by
    simp [buildReqPqMulti, leBytes]
  have hframe : frameAt .paddedIntermediate (buildReqPqMulti unixtime nonce) = some ⟨4, 40⟩ := rfl
  have hend : (buildReqPqMulti unixtime nonce).drop 44 = [] :=
    List.drop_eq_nil_of_le (Nat.le_of_eq hlength)
  rw [layout, layoutFrom_of_frame _ hframe, if_neg (by decide), if_neg (by rw [hlength]; decide)]
  simp only [Frame.len, Nat.zero_add, Nat.reduceAdd, hend]
  rw [layoutFrom_headerless _ rfl, Layout.expectedFlush]
  exact if_neg (by rw [hwire, hlength]; decide)

/-- The client whose bytes `uploaded` come in under the cipher, and who waits then: every
bridge for it that waits for more has sent the whole request on. -/
def Forwards (prim : Primitives) (width : PointerWidth) (cltDec : AesCtr256) (proto : ProtoTag)
    (uploaded request : Bytes) : Prop :=
  ∀ ciphers : ConnectionCiphers, ciphers.cltDec = cltDec →
    (∀ framing relayInit labels state,
      (wsSession prim width framing relayInit ciphers proto).run labels = some state →
      state.phase = .reading → (chunks labels).flatten = uploaded →
      ∃ body, state.accepted = relayInit.toList :: body ∧
        ciphers.tgEnc.mask prim.ks body.flatten = request) ∧
    ∀ framing before labels state,
      (socketSession prim framing before ciphers).run labels = some state →
      state.phase = .reading → (chunks labels).flatten = uploaded →
      ∃ body, state.accepted = before ++ body ∧
        Framing.Carries framing body (ciphers.tgEnc.mask prim.ks request)

theorem forwards_request (prim : Primitives) (width : PointerWidth) (cltDec : AesCtr256)
    (unixtime : UInt64) (nonce : Block 16) :
    Forwards prim width cltDec .paddedIntermediate
      (cltDec.mask prim.ks (buildReqPqMulti unixtime nonce)) (buildReqPqMulti unixtime nonce) := by
  rintro ciphers rfl
  constructor
  · intro framing relayInit labels state hrun hreading hchunks
    obtain ⟨hsound, -⟩ := run_invariants (fun upload => (wsUpload_finish upload).2) hrun
    obtain ⟨body, hfeed, haccepted⟩ := hsound.reading hreading
    obtain ⟨hall, htunnel, hpackets⟩ :=
      wsUpload_feed_initial framing ciphers .paddedIntermediate (chunks labels) hfeed
    rw [hchunks, Cipher.mask_mask] at hall hpackets
    have hheld : state.loop.held = [] := by
      cases framing with
      | tunnel => exact htunnel rfl
      | packets =>
          rw [hpackets rfl, expectedFlush_request unixtime nonce (Cipher.mask_length _ _ _)]
          rfl
    rw [hheld, List.append_nil] at hall
    refine ⟨body, haccepted, ?_⟩
    rw [hall, Cipher.mask_mask]
  · intro framing before labels state hrun hreading hchunks
    obtain ⟨body, haccepted, hcarries⟩ := socket_session_reading hrun hreading
    rw [hchunks, Cipher.mask_mask] at hcarries
    exact ⟨body, haccepted, hcarries⟩

/-! ## The probe -/

/-- The bytes that an event writes, and whether they went out. -/
def written : Event probeSig → Option (Bytes × Bool)
  | ⟨.write bytes, error⟩ => some (bytes, error.isNone)
  | _ => none

/-- With a connection and no failed write, the probe sends a handshake and the request and
is judged by what it reads. -/
theorem probeListener_run {prim : Primitives} {host : String} {port timeout : Nat} {secret : Bytes}
    {dcIdx : Int16} {trace : Trace probeSig} {status : ProbeStatus} {stream : Stream}
    (hrun : Runs (probeListener prim host port secret dcIdx timeout) trace status)
    (hconnect : trace.head? = some ⟨.connect true host port timeout, .ok stream⟩)
    (hsent : AllSent written trace) :
    ∃ draws unixtime nonce,
      let session := clientHandshake prim secret dcIdx .paddedIntermediate draws
      sent written trace =
        session.1.toList ++ session.2.1.mask prim.ks (buildReqPqMulti unixtime nonce) ∧
      (status = .ok ↔
        judgeReply "the listener" timeout session.2.2 prim (readHeader [] stream) = .ok ()) := by
  obtain ⟨reply, rest, rfl, hconnected⟩ := Runs.of_call hrun
  cases hconnect
  obtain ⟨draws, rest, rfl, hdrawn⟩ := Runs.of_call hconnected
  refine ⟨draws, ?_⟩
  generalize clientHandshake prim secret dcIdx .paddedIntermediate draws = session at hdrawn ⊢
  obtain ⟨greeted, rest, rfl, hgreeted⟩ := Runs.of_call hdrawn
  obtain rfl : greeted = none := Option.isNone_iff_eq_none.mp (hsent.tail.tail.head rfl)
  obtain ⟨asking, last, outcome, rfl, hasking, hlast⟩ := Program.runs_bind_iff.mp hgreeted
  obtain ⟨unixtime, rest, rfl, htimed⟩ := Runs.of_call hasking
  obtain ⟨nonce, rest, rfl, hnonce⟩ := Runs.of_call htimed
  obtain ⟨asked, rest, rfl, hasked⟩ := Runs.of_call hnonce
  obtain rfl : asked = none :=
    Option.isNone_iff_eq_none.mp (hsent.tail.tail.tail.tail.tail.head rfl)
  obtain ⟨rfl, rfl⟩ := hasked.of_pure
  refine ⟨unixtime, nonce, ?_⟩
  dsimp only
  cases hjudged : judgeReply "the listener" timeout session.2.2 prim (readHeader [] stream) with
  | error reason =>
      rw [hjudged] at hlast
      obtain ⟨rfl, rfl⟩ := Runs.of_pure hlast
      exact ⟨by simp [sent, written], by simp⟩
  | ok done =>
      rw [hjudged] at hlast
      obtain ⟨rfl, rfl⟩ := Runs.of_pure hlast
      exact ⟨by simp [sent, written], by simp⟩

/-- The probe of the own listener, without FakeTLS, from end to end. The listener reads the
handshake of the probe as a client of the second data centre under the primary secret, every
bridge for it has sent the whole request on when it waits for more, and the probe passes
exactly when what comes back to the client is a `resPQ`. -/
theorem listener_probe_faithful {hex : Codec} (hmac : Hmac) (prim : Primitives)
    (width : PointerWidth) (settings : Settings hex) {Ws Conn : Type} {host : String} {port : Nat}
    {trace : Trace probeSig} {status : ProbeStatus} {stream : Stream}
    (hplain : settings.started.listenFaketlsDomain = none)
    (hsecrets : settings.started.normalizedSecrets ≠ [])
    (hrun : Runs (probe hmac prim settings (.listener host port)) trace (.ok status))
    (hconnect : trace.head? = some ⟨.connect true host port settings.replyTimeout, .ok stream⟩)
    (hsent : AllSent written trace) {source : Source UInt8}
    (hsource : source.elements = sent written trace) :
    ∃ (handshake : Block 64) (reader : Source UInt8) (unixtime : UInt64) (nonce : Block 16),
      (readInboundHandshake hmac width settings.started.normalizedSecrets
        settings.started.listenFaketlsDomain source : Handler Ws Conn _) =
          pure (some (handshake, {}, reader)) ∧
      findHandshake prim settings.started.normalizedSecrets handshake =
        some (⟨2, false, .paddedIntermediate, prekeyAndIv handshake⟩, settings.secretBytes) ∧
      ∀ relayInit,
        let ciphers :=
          buildConnectionCiphers prim (prekeyAndIv handshake) settings.secretBytes relayInit
        Forwards prim width ciphers.cltDec .paddedIntermediate reader.elements
          (buildReqPqMulti unixtime nonce) ∧
        ∀ plain, stream.source.elements = ciphers.cltEnc.mask prim.ks plain →
          (status = .ok ↔ Answers plain) := by
  obtain ⟨probing, last, probed, rfl, hprobing, hlast⟩ := Program.runs_bind_iff.mp hrun
  obtain ⟨rfl, hstatus⟩ := Runs.of_pure hlast
  cases hstatus
  rw [List.append_nil] at hconnect hsent hsource
  obtain ⟨draws, unixtime, nonce, hbytes, hverdict⟩ := probeListener_run hprobing hconnect hsent
  obtain ⟨hparse, hciphers⟩ :=
    clientHandshake_parses prim settings.secretBytes 2 .paddedIntermediate draws
  generalize clientHandshake prim settings.secretBytes 2 .paddedIntermediate draws = session
    at hbytes hverdict hparse hciphers
  obtain ⟨handshake, enc, dec⟩ := session
  obtain ⟨reader, hread, hreader⟩ := Source.readExact_append (hsource.trans hbytes)
  rw [List.Vector.toList_length] at hread
  refine ⟨handshake, reader, unixtime, nonce, ?_, ?_, ?_⟩
  · have hbuf : handshakeBuf handshake.toList = handshake :=
      List.Vector.toList_injective (handshakeBuf_toList handshake.toList_length)
    simp only [readInboundHandshake, hplain, hread, hbuf]
  · obtain ⟨secret, secrets, hnormalized⟩ := List.exists_cons_of_ne_nil hsecrets
    have hsecret : settings.secretBytes = secret := by
      rw [Settings.secretBytes, hnormalized]
      rfl
    rw [hsecret] at hparse ⊢
    rw [findHandshake, hnormalized, List.findSome?_cons, hparse]
    rfl
  · intro relayInit ciphers
    obtain ⟨hdec, henc⟩ := hciphers relayInit
    refine ⟨?_, fun plain hstream => ?_⟩
    · rw [hreader, ← hdec]
      exact forwards_request prim width _ unixtime nonce
    · rw [hverdict]
      exact judgeReply_eq_ok (hstream.trans (congrArg (Cipher.mask prim.ks · plain) henc))

/-- A listener without FakeTLS. -/
def plainSettings : Settings Foundation.Hex.standard where
  started :=
    { posingStarted with
      config := { posingStarted.config with listenFaketlsDomain := none }
      decoded := posingStarted.decoded }
  proxies := []
  cfIps := false
  checkListener := true
  handshakeTimeout := 10
  tcpFallbackTimeout := 10

/-- The beginning of a `resPQ`. -/
def sampleAnswer : Bytes :=
  [80, 0, 0, 0] ++ List.replicate 8 0 ++ List.replicate 12 1 ++ [0x63, 0x24, 0x16, 0x05]

/-- The answer comes in two pieces, and the connection stays open. -/
theorem listener_probe_faithful_answered :
    let hmac : Hmac := fun _ _ => List.Vector.replicate 32 0
    ∃ (trace : Trace probeSig) (handshake : Block 64),
      Runs (probe hmac samplePrimitives plainSettings (.listener "127.0.0.1" 1443)) trace
        (.ok .ok) ∧
      AllSent written trace ∧
      findHandshake samplePrimitives plainSettings.started.normalizedSecrets handshake =
        some (⟨2, false, .paddedIntermediate, prekeyAndIv handshake⟩,
          plainSettings.secretBytes) := by
  intro hmac
  let draws : Draws := ⟨sampleDraws, by decide⟩
  let session :=
    clientHandshake samplePrimitives plainSettings.secretBytes 2 .paddedIntermediate draws
  let wire := session.2.2.mask samplePrimitives.ks sampleAnswer
  let stream : Stream := ⟨[wire.take 10, wire.drop 10], .silent⟩
  let nonce : Block 16 := List.Vector.replicate 16 7
  have hstream : stream.source.elements = wire := by simp [stream, Source.elements]
  have hjudged : judgeReply "the listener" plainSettings.replyTimeout session.2.2 samplePrimitives
      (readHeader [] stream) = .ok () :=
    (judgeReply_eq_ok hstream).mpr ⟨by decide, by decide, by decide⟩
  let trace : Trace probeSig :=
    [⟨.connect true "127.0.0.1" 1443 plainSettings.replyTimeout, .ok stream⟩,
      ⟨.handshakeDraws, draws⟩, ⟨.write session.1.toList, none⟩, ⟨.unixtime, (0 : UInt64)⟩,
      ⟨.nonce, nonce⟩,
      ⟨.write (session.2.1.mask samplePrimitives.ks (buildReqPqMulti 0 nonce)), none⟩]
  have hasking : Runs (requireResPq samplePrimitives stream session.2.1 session.2.2
      plainSettings.replyTimeout "the listener") (trace.drop 3) (.ok ()) := by
    refine @Runs.call probeSig _ .unixtime _ (0 : UInt64) _ _ ?_
    refine @Runs.call probeSig _ .nonce _ nonce _ _ ?_
    refine @Runs.call probeSig _ (.write _) _ none _ _ ?_
    rw [← hjudged]
    exact .pure _
  have hprobing : Runs (probeListener samplePrimitives "127.0.0.1" 1443 plainSettings.secretBytes 2
      plainSettings.replyTimeout) trace .ok := by
    refine @Runs.call probeSig _ (.connect true _ _ _) _ (.ok stream) _ _ ?_
    refine @Runs.call probeSig _ .handshakeDraws _ draws _ _ ?_
    refine @Runs.call probeSig _ (.write _) _ none _ _ ?_
    exact hasking.bind (.pure _)
  have hrun : Runs (probe hmac samplePrimitives plainSettings (.listener "127.0.0.1" 1443)) trace
      (.ok .ok) := hprobing.bind (.pure _)
  have hsent : AllSent written trace := by
    simp [AllSent, trace, written]
  obtain ⟨handshake, reader, unixtime, nonce, -, hfound, -⟩ :=
    @listener_probe_faithful _ hmac samplePrimitives .bits64 plainSettings Unit Unit "127.0.0.1"
      1443 _ _ stream rfl (by decide) hrun rfl hsent [sent written trace] (List.append_nil _)
  exact ⟨trace, handshake, hrun, hsent, hfound⟩

end TgWsProxy.Check
