import TgWsProxy.Bridge.Pump
import TgWsProxy.Crypto.Agreement
import TgWsProxy.Splitter.Chunking
import TgWsProxy.Splitter.Conservation

/-!
# End-to-end transparency of the bridges

A client that follows the obfuscation scheme and a Telegram peer that knows
only the relay init see each other's plaintext through the proxy. Three of the
four directions are plain pumps; the upload with packet framing holds back the
packet under assembly, and its flush makes up for that at the end.
-/

namespace TgWsProxy.Bridge

open Foundation.Keystream Foundation.Machine TgWsProxy.Crypto TgWsProxy.Splitter

/-! ## The two remote ends -/

/-- The client encrypts its data from position 64 of the keystream of its init. -/
def clientSend (prim : Primitives) (init : Block 64) (secret : Bytes) : AesCtr256 :=
  (handshakeCipher prim init secret).advance handshakeLen

/-- The client reads with the reversed prekey and IV, from position 0. -/
def clientReceive (prim : Primitives) (init : Block 64) (secret : Bytes) : AesCtr256 :=
  let reversed := (prekeyAndIv init).reversed
  makeCipher (deriveKey prim (prekeyOf reversed) secret) (ivOf reversed)

/-- The peer reads with the raw key and IV of the relay init, from position 64. -/
def peerReceive (relayInit : Block 64) : AesCtr256 :=
  (makeCipher (relayInit.slice skipLen prekeyLen prekey_le_packet)
    (relayInit.slice (skipLen + prekeyLen) ivLen iv_le_packet)).advance handshakeLen

/-- The peer answers with the reversed key and IV, from position 0. -/
def peerSend (relayInit : Block 64) : AesCtr256 :=
  let reversed := (prekeyAndIv relayInit).reversed
  makeCipher (prekeyOf reversed) (ivOf reversed)

/-- Each of the proxy's four ciphers starts in the state of the remote end it
talks to. -/
theorem buildConnectionCiphers_eq (prim : Primitives) (init relayInit : Block 64)
    (secret : Bytes) :
    buildConnectionCiphers prim (prekeyAndIv init) secret relayInit =
      { cltDec := clientSend prim init secret
        cltEnc := clientReceive prim init secret
        tgEnc := peerReceive relayInit
        tgDec := peerSend relayInit } := by
  simp only [buildConnectionCiphers, prekeyOf_prekeyAndIv, ivOf_prekeyAndIv, clientSend,
    clientReceive, peerReceive, peerSend, handshakeCipher, Cipher.applyKeystream_snd,
    List.length_replicate]

section Upload

variable {prim : Primitives} (width : PointerWidth) {proto : ProtoTag} {source dest : AesCtr256}
  {plain : Bytes} {opening : List Bytes}

/-- A sink whose messages are the beginning of the ciphertext has delivered the
beginning of the plaintext. -/
theorem partly_of_initial {sink : Sink} {body : List Bytes}
    (hbody : sink.accepted = opening ++ body)
    (hinitial : body.flatten <+: dest.mask prim.ks plain) :
    ∃ sent, sent <+: plain ∧ Delivered prim dest opening sent sink := by
  refine ⟨plain.take body.flatten.length, List.take_prefix _ _, body, hbody, ?_⟩
  rw [List.prefix_iff_eq_take.mp hinitial, Cipher.mask_take, Cipher.mask_mask]
  simp

/-- The upload of `bridge_ws` with packet framing stands at `pos`: what the sink
accepted and the packet under assembly are the ciphertext so far. -/
structure Split (prim : Primitives) (proto : ProtoTag) (source dest : AesCtr256) (plain : Bytes)
    (opening : List Bytes) (pos : Nat) (upload : WsUpload) (splitter : MsgSplitter) : Prop where
  pos_le : pos ≤ plain.length
  some_splitter : upload.splitter = some splitter
  dec : upload.cltDec = source.advance pos
  tracks : Tracks prim proto dest plain pos splitter upload.tgEnc
  settled : splitter.Settled
  accepted : ∃ body, upload.sink.accepted = opening ++ body ∧
    body.flatten ++ splitter.packet = dest.mask prim.ks (plain.take pos)

/-- The upload of `bridge_ws`, in either framing, stands at `pos`. -/
def Uploaded (prim : Primitives) (proto : ProtoTag) (source dest : AesCtr256) (plain : Bytes)
    (opening : List Bytes) (pos : Nat) (upload : WsUpload) : Prop :=
  (upload.splitter = none ∧ Pumped prim source dest plain opening pos
    ⟨upload.cltDec, upload.tgEnc, upload.sink⟩) ∨
  ∃ splitter, Split prim proto source dest plain opening pos upload splitter

/-- What one turn of the upload loop leads to. -/
inductive Forwarded (prim : Primitives) (proto : ProtoTag) (source dest : AesCtr256)
    (plain : Bytes) (opening : List Bytes) (pos : Nat) (before : Sink) :
    Except Fault (WsUpload × Bool) → Prop
  | sent {next : WsUpload} (huploaded : Uploaded prim proto source dest plain opening pos next)
      (hreliable : before.Reliable → next.sink.Reliable) :
      Forwarded prim proto source dest plain opening pos before (.ok (next, true))
  | failed {next : WsUpload} (hunreliable : ¬ before.Reliable)
      (hpartly : ∃ sent, sent <+: plain ∧ Delivered prim dest opening sent next.sink) :
      Forwarded prim proto source dest plain opening pos before (.ok (next, false))

theorem Tracks.cipher_eq {pos : Nat} {splitter : MsgSplitter} {enc : AesCtr256}
    (htracks : Tracks prim proto dest plain pos splitter enc) : enc = dest.advance pos := by
  rcases htracks with ⟨_, _, hasm⟩ | hbypassed
  · exact hasm.cipher
  · exact hbypassed.cipher

theorem Split.forward {pos : Nat} {upload : WsUpload} {splitter : MsgSplitter}
    (hsplit : Split prim proto source dest plain opening pos upload splitter) {chunk : Bytes}
    (hwithin : pos + chunk.length ≤ plain.length)
    (hchunk : (source.mask prim.ks plain).extract pos (pos + chunk.length) = chunk) :
    Forwarded prim proto source dest plain opening (pos + chunk.length) upload.sink
      (upload.forward prim width chunk) := by
  have hplain := mask_extract_mask hchunk
  rw [← hsplit.dec] at hplain
  obtain ⟨splitter', enc', hcall, htracks⟩ := splitAndEncrypt_tracks width hsplit.tracks
    (Nat.le_add_right pos chunk.length) hwithin
  obtain ⟨hconserved, henc, hsettled⟩ :=
    MsgSplitter.splitAndEncrypt_conserved prim width hsplit.settled hcall
  -- From here on only conservation matters, not which parts the layout cuts.
  generalize (layout proto plain).expectedParts (dest.mask prim.ks plain) pos (pos + chunk.length)
    = parts at hcall hconserved
  obtain ⟨body, hbody, hstream⟩ := hsplit.accepted
  have hnext : (body ++ parts).flatten ++ splitter'.packet =
      dest.mask prim.ks (plain.take (pos + chunk.length)) := by
    have hjoin := take_append_extract plain (Nat.le_add_right pos chunk.length)
    rw [List.flatten_append, List.append_assoc, hconserved, ← List.append_assoc, hstream,
      Tracks.cipher_eq hsplit.tracks, ← hjoin, Cipher.mask_append,
      List.length_take_of_le hsplit.pos_le]
  have hforward : upload.forward prim width chunk =
      .ok ({ cltDec := upload.cltDec.advance chunk.length
             tgEnc := enc'
             splitter := some splitter'
             sink := (upload.sink.sendParts parts).1 }, (upload.sink.sendParts parts).2) := by
    simp only [WsUpload.forward, Cipher.applyKeystream, hplain, hsplit.some_splitter, hcall, bind,
      Except.bind, pure, Except.pure]
  rw [hforward]
  rcases upload.sink.sendParts_cases parts with
    ⟨hsent, haccepted, hreliable⟩ | ⟨hfailed, hbad, sent, hsome, haccepted⟩
  · rw [hsent]
    refine .sent (Or.inr ⟨splitter', hwithin, rfl, ?_, htracks, hsettled, body ++ parts, ?_,
      hnext⟩) hreliable
    · rw [hsplit.dec, Cipher.advance_advance]
    · rw [haccepted, hbody, List.append_assoc]
  · rw [hfailed]
    have hpartly : (upload.sink.sendParts parts).1.accepted = opening ++ (body ++ sent) := by
      rw [haccepted, hbody, List.append_assoc]
    refine .failed hbad (partly_of_initial hpartly ?_)
    -- The parts before the failed write are still a beginning of the ciphertext.
    calc (body ++ sent).flatten
        <+: (body ++ parts).flatten := by
          obtain ⟨unsent, rfl⟩ := hsome
          exact ⟨unsent.flatten, by simp⟩
      _ <+: (body ++ parts).flatten ++ splitter'.packet := List.prefix_append _ _
      _ = (dest.mask prim.ks plain).take (pos + chunk.length) := by
          rw [hnext, Cipher.mask_take]
      _ <+: dest.mask prim.ks plain := List.take_prefix _ _

/-- One turn of the upload loop, in either framing. -/
theorem Uploaded.forward {pos : Nat} {upload : WsUpload}
    (huploaded : Uploaded prim proto source dest plain opening pos upload) {chunk : Bytes}
    (hwithin : pos + chunk.length ≤ plain.length)
    (hchunk : (source.mask prim.ks plain).extract pos (pos + chunk.length) = chunk) :
    Forwarded prim proto source dest plain opening (pos + chunk.length) upload.sink
      (upload.forward prim width chunk) := by
  rcases huploaded with ⟨hnone, hpumped⟩ | ⟨splitter, hsplit⟩
  · -- A tunnel read is one step of a pump.
    have hforward : upload.forward prim width chunk =
        .ok (let (pump, sent) := Pump.forward prim ⟨upload.cltDec, upload.tgEnc, upload.sink⟩ chunk
          (⟨pump.dec, pump.enc, none, pump.sink⟩, sent)) := by
      simp only [WsUpload.forward, hnone, pure, Except.pure]
      rfl
    rw [hforward]
    have hstep := hpumped.forward hwithin hchunk
    obtain ⟨body, hbody, hplain⟩ := hpumped.delivered
    cases hnext : Pump.forward prim ⟨upload.cltDec, upload.tgEnc, upload.sink⟩ chunk with
    | mk next sent =>
        rw [hnext] at hstep
        rcases hstep with ⟨hsent, hnextPumped, hreliable⟩ | ⟨hfailed, hbad, haccepted⟩
        · cases hsent
          exact .sent (Or.inl ⟨rfl, hnextPumped⟩) hreliable
        · cases hfailed
          exact .failed hbad ⟨plain.take pos, List.take_prefix _ _, body,
            haccepted.trans hbody, hplain⟩
  · exact hsplit.forward width hwithin hchunk

theorem pos_eq_length {pos : Nat} (hpos : pos ≤ plain.length)
    (hend : (source.mask prim.ks plain).drop pos = []) : pos = plain.length := by
  have hlength := List.drop_eq_nil_iff.mp hend
  rw [Cipher.mask_length] at hlength
  exact Nat.le_antisymm hpos hlength

/-- The whole upload loop: it ends with the client's stream, or with a failed
write and a prefix delivered. -/
theorem Uploaded.loop {pos : Nat} {upload : WsUpload}
    (huploaded : Uploaded prim proto source dest plain opening pos upload)
    (hpos : pos ≤ plain.length) {reads : List ReadResult}
    (hreads : streamOf reads = some ((source.mask prim.ks plain).drop pos)) :
    ∃ last exit, upload.loop prim width reads = .ok (last, exit) ∧
      ((exit = .clientClosed ∧
          Uploaded prim proto source dest plain opening plain.length last ∧
          (upload.sink.Reliable → last.sink.Reliable)) ∨
        (exit = .sendFailed ∧ ¬ upload.sink.Reliable ∧
          ∃ sent, sent <+: plain ∧ Delivered prim dest opening sent last.sink)) := by
  induction reads generalizing pos upload with
  | nil => simp [streamOf] at hreads
  | cons read rest ih =>
      cases read with
      | err =>
          have hend := pos_eq_length hpos (Option.some.inj hreads).symm
          exact ⟨upload, .clientClosed, rfl, Or.inl ⟨rfl, hend ▸ huploaded, fun h => h⟩⟩
      | ok chunk =>
          by_cases hchunk : chunk = []
          · have hdrop : (source.mask prim.ks plain).drop pos = [] := by
              simpa [streamOf, hchunk] using hreads.symm
            have hend := pos_eq_length hpos hdrop
            refine ⟨upload, .clientClosed, ?_, Or.inl ⟨rfl, hend ▸ huploaded, fun h => h⟩⟩
            simp [WsUpload.loop, hchunk, pure, Except.pure]
          · simp only [streamOf, if_neg hchunk, Option.map_eq_some_iff] at hreads
            obtain ⟨later, hlater, hsplit⟩ := hreads
            obtain ⟨hwithin, hpiece, hrest⟩ := extract_of_drop_eq (by simpa using hpos) hsplit.symm
            rw [Cipher.mask_length] at hwithin
            have hforward := huploaded.forward width hwithin hpiece
            unfold WsUpload.loop
            rw [if_neg hchunk]
            generalize upload.forward prim width chunk = result at hforward
            cases hforward with
            | sent hnext hreliable =>
                obtain ⟨last, exit, hlast, hexit⟩ := ih hnext hwithin (by rw [hrest, hlater])
                refine ⟨last, exit, by simpa [bind, Except.bind] using hlast, ?_⟩
                rcases hexit with ⟨hexit, hdone, hkeep⟩ | ⟨hexit, hbad, hpartly⟩
                · exact Or.inl ⟨hexit, hdone, fun h => hkeep (hreliable h)⟩
                · exact Or.inr ⟨hexit, fun h => hbad (hreliable h), hpartly⟩
            | failed hbad hpartly =>
                exact ⟨_, .sendFailed, rfl, Or.inr ⟨rfl, hbad, hpartly⟩⟩

/-- The flush at the end sends the packet under assembly, so that nothing is
held back when the sink is closed. -/
theorem Uploaded.finish {upload : WsUpload}
    (huploaded : Uploaded prim proto source dest plain opening plain.length upload) :
    Finishes prim dest plain opening upload.sink upload.finish.sink ∧
      upload.finish.sink.closed = true := by
  rcases huploaded with ⟨hnone, hpumped⟩ | ⟨splitter, hsplit⟩
  · have hdelivered := hpumped.delivered
    rw [List.take_length] at hdelivered
    simp only [WsUpload.finish, hnone]
    exact ⟨⟨fun _ => hdelivered, plain, List.prefix_rfl, hdelivered⟩, rfl⟩
  · obtain ⟨body, hbody, hstream⟩ := hsplit.accepted
    rw [List.take_length] at hstream
    simp only [WsUpload.finish, hsplit.some_splitter, MsgSplitter.flush]
    by_cases hempty : splitter.packet = []
    · rw [if_pos hempty]
      rw [hempty, List.append_nil] at hstream
      have hdelivered : Delivered prim dest opening plain upload.sink.close :=
        ⟨body, hbody, by rw [hstream, Cipher.mask_mask]⟩
      exact ⟨⟨fun _ => hdelivered, plain, List.prefix_rfl, hdelivered⟩, rfl⟩
    · rw [if_neg hempty]
      refine ⟨?_, rfl⟩
      rcases upload.sink.send_cases splitter.packet with
        ⟨_, haccepted, _⟩ | ⟨_, haccepted, hbad⟩
      · have hdelivered : Delivered prim dest opening plain
            (upload.sink.send splitter.packet).1.close := by
          refine ⟨body ++ [splitter.packet], ?_, ?_⟩
          · change (upload.sink.send splitter.packet).1.accepted = _
            rw [haccepted, hbody, List.append_assoc]
          · rw [List.flatten_append, List.flatten_singleton, hstream, Cipher.mask_mask]
        exact ⟨fun _ => hdelivered, plain, List.prefix_rfl, hdelivered⟩
      · have hpartly : (upload.sink.send splitter.packet).1.close.accepted = opening ++ body :=
          haccepted.trans hbody
        exact ⟨fun h => absurd h hbad, partly_of_initial hpartly ⟨splitter.packet, hstream⟩⟩

/-- The upload half of `bridge_ws` as a whole, with the relay init first. -/
theorem bridgeWsUpload_carried (framing : WsFraming) (relayInit : Block 64)
    (ciphers : ConnectionCiphers) (reads : List ReadResult) (results : List Bool)
    (hreads : streamOf reads = some (ciphers.cltDec.mask prim.ks plain)) :
    ∃ sink, bridgeWsUpload prim width framing relayInit ciphers proto reads results = .ok sink ∧
      Carried prim ciphers.tgEnc [relayInit.toList] plain results sink := by
  unfold bridgeWsUpload
  have hfirst := (Sink.connect results).send_cases relayInit.toList
  cases hsend : (Sink.connect results).send relayInit.toList with
  | mk sink sent =>
      rw [hsend] at hfirst
      rcases hfirst with ⟨hsent, haccepted, hreliable⟩ | ⟨hfailed, haccepted, hbad⟩
      · cases hsent
        have hstart : Uploaded prim proto ciphers.cltDec ciphers.tgEnc plain [relayInit.toList] 0
            ⟨ciphers.cltDec, ciphers.tgEnc,
              if framing = .packets then some (MsgSplitter.new proto) else none, sink⟩ := by
          by_cases hframing : framing = .packets
          · rw [if_pos hframing]
            exact Or.inr ⟨MsgSplitter.new proto, Nat.zero_le _, rfl, rfl, new_tracks,
              fun _ => rfl, [], haccepted, rfl⟩
          · rw [if_neg hframing]
            exact Or.inl ⟨rfl, Nat.zero_le _, rfl, rfl, [], haccepted, rfl⟩
        obtain ⟨last, exit, hlast, hexit⟩ := hstart.loop width (Nat.zero_le _) hreads
        simp only [hlast, bind, Except.bind, pure, Except.pure]
        rcases hexit with ⟨rfl, hdone, hkeep⟩ | ⟨rfl, hunreliable, hpartly⟩
        · obtain ⟨hfinishes, _⟩ := hdone.finish
          refine ⟨last.finish.sink, rfl, ?_, Or.inr hfinishes.partly⟩
          intro hresults
          exact hfinishes.all (hkeep (hreliable hresults))
        · refine ⟨last.sink, rfl, ?_, Or.inr hpartly⟩
          intro hresults
          exact absurd (hreliable hresults) hunreliable
      · cases hfailed
        exact ⟨sink, rfl, fun hresults => absurd hresults hbad, Or.inl haccepted⟩

theorem bridgeTcpUpload_carried (relayInit : Block 64) (ciphers : ConnectionCiphers)
    (reads : List ReadResult) (results : List Bool)
    (hreads : streamOf reads = some (ciphers.cltDec.mask prim.ks plain)) :
    Carried prim ciphers.tgEnc [relayInit.toList] plain results
      (bridgeTcpUpload prim relayInit ciphers reads results) := by
  unfold bridgeTcpUpload
  have hfirst := (Sink.connect results).send_cases relayInit.toList
  cases hsend : (Sink.connect results).send relayInit.toList with
  | mk sink sent =>
      rw [hsend] at hfirst
      rcases hfirst with ⟨hsent, haccepted, hreliable⟩ | ⟨hfailed, haccepted, hbad⟩
      · cases hsent
        have hstart : Pumped prim ciphers.cltDec ciphers.tgEnc plain [relayInit.toList] 0
            ⟨ciphers.cltDec, ciphers.tgEnc, sink⟩ :=
          ⟨Nat.zero_le _, rfl, rfl, [], haccepted, rfl⟩
        have hfinishes := hstart.reads hreads
        exact ⟨fun hresults => hfinishes.all (hreliable hresults), Or.inr hfinishes.partly⟩
      · cases hfailed
        exact ⟨fun hresults => absurd hresults hbad, Or.inl haccepted⟩

end Upload

/-- End-to-end transparency. Whatever init the client chose, whatever relay init
was sent and however the sockets cut the streams: what the peer decrypts after
the relay init is what the client sent, in each framing and over TCP, and what
the client decrypts is what the peer answered. -/
theorem bridges_transparent (prim : Primitives) (width : PointerWidth) (secret : Bytes)
    (init relayInit : Block 64) (proto : ProtoTag) (results : List Bool) :
    let ciphers := buildConnectionCiphers prim (prekeyAndIv init) secret relayInit
    (∀ plain reads, streamOf reads = some ((clientSend prim init secret).mask prim.ks plain) →
      (∀ framing, ∃ sink,
        bridgeWsUpload prim width framing relayInit ciphers proto reads results = .ok sink ∧
        Carried prim (peerReceive relayInit) [relayInit.toList] plain results sink) ∧
      Carried prim (peerReceive relayInit) [relayInit.toList] plain results
        (bridgeTcpUpload prim relayInit ciphers reads results)) ∧
    (∀ answer events, payloadOf events = some ((peerSend relayInit).mask prim.ks answer) →
      Carried prim (clientReceive prim init secret) [] answer results
        (bridgeWsDownload prim ciphers events results)) ∧
    (∀ answer reads, streamOf reads = some ((peerSend relayInit).mask prim.ks answer) →
      Carried prim (clientReceive prim init secret) [] answer results
        (bridgeTcpDownload prim ciphers reads results)) := by
  have hstart : ∀ answer, Pumped prim (peerSend relayInit) (clientReceive prim init secret) answer
      [] 0 ⟨peerSend relayInit, clientReceive prim init secret, Sink.connect results⟩ :=
    fun answer => ⟨Nat.zero_le _, rfl, rfl, [], rfl, rfl⟩
  rw [buildConnectionCiphers_eq]
  intro ciphers
  refine ⟨?_, ?_, ?_⟩
  · intro plain reads hreads
    refine ⟨?_, bridgeTcpUpload_carried relayInit ciphers reads results hreads⟩
    intro framing
    exact bridgeWsUpload_carried width framing relayInit ciphers reads results hreads
  · intro answer events hevents
    have hfinishes := (hstart answer).events hevents
    exact ⟨hfinishes.all, Or.inr hfinishes.partly⟩
  · intro answer reads hreads
    have hfinishes := (hstart answer).reads hreads
    exact ⟨hfinishes.all, Or.inr hfinishes.partly⟩

/-- A client that sends one abridged packet and half of the next in two reads. -/
theorem bridges_transparent_sample :
    let init : Block 64 := ⟨List.replicate 64 0x21, by simp⟩
    let relayInit : Block 64 := ⟨List.replicate 64 0x35, by simp⟩
    let ciphers := buildConnectionCiphers samplePrimitives (prekeyAndIv init) [1, 2] relayInit
    let wire := (clientSend samplePrimitives init [1, 2]).mask samplePrimitives.ks
      [1, 10, 11, 12, 13, 2, 20]
    ∃ sink, bridgeWsUpload samplePrimitives .bits64 .packets relayInit ciphers .abridged
        [.ok (wire.take 3), .ok (wire.drop 3), .err] [] = .ok sink ∧
      Delivered samplePrimitives (peerReceive relayInit) [relayInit.toList]
        [1, 10, 11, 12, 13, 2, 20] sink := by
  intro init relayInit ciphers wire
  obtain ⟨hupload, _⟩ :=
    bridges_transparent samplePrimitives .bits64 [1, 2] init relayInit .abridged []
  obtain ⟨sink, hsink, hcarried⟩ := (hupload [1, 10, 11, 12, 13, 2, 20]
    [.ok (wire.take 3), .ok (wire.drop 3), .err] rfl).1 .packets
  exact ⟨sink, hsink, hcarried.all (List.forall_mem_nil _)⟩

end TgWsProxy.Bridge
