import TgWsProxy.Client.Request
import TgWsProxy.Relay.Flow
import TgWsProxy.Session.Bridges

/-!
# From the client's bytes to Telegram

The handler and the session behind it, put together: what a client sends to the listener, in
whatever pieces, and what Telegram decrypts at the other end.
-/

namespace TgWsProxy.Session

open Foundation.Effect Foundation.Keystream Foundation.Machine Foundation.Stream
open TgWsProxy.Bridge TgWsProxy.Client TgWsProxy.Crypto TgWsProxy.FakeTls TgWsProxy.Relay
open Foundation.Effect.Program (Reaches)
open Foundation.Hex (Codec)

/-! ## What the upload reads -/

/-- The first reads from the client's socket, into the buffer of the upload. -/
def clientChunks (reader : ClientReader) (count : Nat) : List Bytes :=
  (reads ClientReader.read (List.replicate count clientReadBufSize) reader).1

/-- The chunks of a run are what its reads returned. -/
def ReadsFrom (reader : ClientReader) (labels : List Label) : Prop :=
  ∃ count, chunks labels = clientChunks reader count

/-- And the read behind them found the end of the stream. -/
def ReadsOut (reader : ClientReader) (labels : List Label) : Prop :=
  ∃ count, chunks labels ++ [[]] = clientChunks reader count

theorem clientChunks_delivers {reader : ClientReader} {later : Bytes}
    (hholds : reader.Holds later) (count : Nat) :
    (clientChunks reader count).flatten <+: later ∧
      ([] ∈ clientChunks reader count → (clientChunks reader count).flatten = later) := by
  have hfit : AllFit ClientReader.read ClientReader.Fits reader
      (List.replicate count clientReadBufSize) := by
    refine ClientReader.allFit_of_le fun size hsize => ?_
    rw [List.eq_of_mem_replicate hsize]
    decide
  obtain ⟨hbeginning, hall⟩ := ClientReader.read_delivers.reads hholds hfit
  exact ⟨hbeginning, fun hempty => hall (.inl hempty)⟩

/-! ## What Telegram decrypts -/

/-- Telegram has nothing yet, or the relay init and behind it a beginning of the plaintext. -/
def TelegramReads (prim : Primitives) (relayInit : Block 64) (stream plain : Bytes) : Prop :=
  stream = [] ∨ ∃ body, stream = relayInit.toList ++ body ∧
    (peerReceive relayInit).mask prim.ks body <+: plain

/-- Telegram has the relay init and behind it the whole plaintext. -/
def TelegramReadsAll (prim : Primitives) (relayInit : Block 64) (stream plain : Bytes) : Prop :=
  ∃ body, stream = relayInit.toList ++ body ∧ (peerReceive relayInit).mask prim.ks body = plain

theorem TelegramReads.trans {prim : Primitives} {relayInit : Block 64} {stream read plain : Bytes}
    (hreads : TelegramReads prim relayInit stream read) (hread : read <+: plain) :
    TelegramReads prim relayInit stream plain := by
  rcases hreads with hnothing | ⟨body, hbody, hbeginning⟩
  · exact .inl hnothing
  · exact .inr ⟨body, hbody, hbeginning.trans hread⟩

section Upload

variable {prim : Primitives} {width : PointerWidth} {relayInit : Block 64}
  {ciphers : ConnectionCiphers} {labels : List Label}

/-- The session of `bridge_ws`, for a peer with the keys of the relay init. -/
theorem wsSession_telegramReads {framing : WsFraming} {proto : ProtoTag}
    (henc : ciphers.tgEnc = peerReceive relayInit) {state : State Upload Bytes}
    (hrun : (wsSession prim width framing relayInit ciphers proto).run labels = some state) :
    let read := ciphers.cltDec.mask prim.ks (chunks labels).flatten
    TelegramReads prim relayInit state.accepted.flatten read ∧
      ∀ up down, state.main = .closed .client up down → .sendFailed ∉ labels →
        TelegramReadsAll prim relayInit state.accepted.flatten read := by
  have hfinish : ∀ upload, ((wsUpload prim width).finish upload).length ≤ 1 :=
    fun upload => (wsUpload_finish upload).2
  have hresumable := @Upload.initial_resumable prim framing ciphers proto
  have hheld := Upload.held_initial framing ciphers proto
  obtain ⟨hsound, -⟩ := run_invariants hfinish hrun
  constructor
  · rcases hsound.stop.2.messages hresumable hheld with ⟨hnothing, -⟩ | ⟨body, hbody, hplain, -⟩
    · left
      change state.accepted = [] at hnothing
      rw [hnothing]
      rfl
    · right
      change state.accepted = relayInit.toList :: body at hbody
      rw [hbody]
      exact ⟨body.flatten, rfl, henc ▸ hplain⟩
  · intro up down hclosed hsent
    obtain ⟨body, hbody, hplain⟩ :=
      messages_of_whole hresumable hheld (whole_of_closed hfinish hrun hclosed hsent)
    rw [hbody]
    exact ⟨body.flatten, rfl, henc ▸ hplain⟩

/-- The session of `bridge_tcp`. -/
theorem socketSession_telegramReads (henc : ciphers.tgEnc = peerReceive relayInit)
    {state : State Upload UInt8}
    (hrun : (socketSession prim .raw relayInit.toList ciphers).run labels = some state) :
    let read := ciphers.cltDec.mask prim.ks (chunks labels).flatten
    TelegramReads prim relayInit state.accepted read ∧
      ∀ up down, state.main = .closed .client up down → .sendFailed ∉ labels →
        TelegramReadsAll prim relayInit state.accepted read := by
  have hfinish : ∀ upload, ((socketUpload prim .raw).finish upload).length ≤ 1 :=
    fun _ => Nat.zero_le 1
  obtain ⟨hsound, -⟩ := run_invariants hfinish hrun
  constructor
  · obtain ⟨body, hbody, hread⟩ := hsound.stop.2.bytes
    obtain ⟨got, hgot, -, hplain⟩ := hread [body] (List.append_nil body)
    obtain rfl : body = got := (List.append_nil body).symm.trans hgot
    exact .inr ⟨body, hbody, henc ▸ hplain⟩
  · intro up down hclosed hsent
    obtain ⟨last, outputs, hfeed, haccepted⟩ := socket_session_whole hrun hclosed hsent
    obtain ⟨outputs', hfeed', hcarries⟩ :=
      @socketUpload_feed prim .raw ⟨ciphers.cltDec, ciphers.tgEnc, none⟩ (chunks labels)
    cases hfeed.symm.trans hfeed'
    refine ⟨outputs, by simpa [socketUpload] using haccepted, ?_⟩
    rw [← henc, show outputs = _ from hcarries]
    exact Cipher.mask_mask _ _ _

end Upload

/-! ## The handler and the session -/

/-- What becomes of the plaintext in a run of a session: at every moment Telegram decrypts a
beginning of it, and all of it once the client has come to its end and no write failed. -/
structure Arrives (prim : Primitives) (relayInit : Block 64) (reader : ClientReader)
    (labels : List Label) (main : Main) (stream plain : Bytes) : Prop where
  beginning : ReadsFrom reader labels → TelegramReads prim relayInit stream plain
  whole : ∀ up down, ReadsOut reader labels → main = .closed .client up down →
    .sendFailed ∉ labels → TelegramReadsAll prim relayInit stream plain

theorem Arrives.of_reads {prim : Primitives} {relayInit : Block 64} {reader : ClientReader}
    {labels : List Label} {main : Main} {stream plain : Bytes} {cipher : AesCtr256}
    (hholds : reader.Holds (cipher.mask prim.ks plain))
    (hreads : let read := cipher.mask prim.ks (chunks labels).flatten
      TelegramReads prim relayInit stream read ∧
        ∀ up down, main = .closed .client up down → .sendFailed ∉ labels →
          TelegramReadsAll prim relayInit stream read) :
    Arrives prim relayInit reader labels main stream plain where
  beginning := by
    rintro ⟨count, hcount⟩
    refine hreads.1.trans (mask_beginning ?_)
    rw [hcount]
    exact (clientChunks_delivers hholds count).1
  whole := by
    rintro up down ⟨count, hcount⟩ hclosed hsent
    have hall := (clientChunks_delivers hholds count).2 (hcount ▸ by simp)
    rw [← hcount, List.flatten_append, List.flatten_singleton, List.append_nil] at hall
    have hread := hreads.2 up down hclosed hsent
    rw [hall, Cipher.mask_mask] at hread
    exact hread

/-- Whatever a client sends and however it arrives: where the handler comes to a bridge, the
client is served as it asked, and the plaintext that it encrypted behind its init arrives at
Telegram through the session behind the bridge, over a WebSocket or over TCP. -/
theorem client_reaches_telegram {Ws Conn : Type} {hex : Codec} (hmac : Hmac) (prim : Primitives)
    (width : PointerWidth) (started : Started hex) (source : Source UInt8)
    {done : Trace (handlerSig Ws Conn)} {session : Session Ws Conn}
    {next : Unit → Handler Ws Conn Unit}
    (hreaches : Reaches (handleClient hmac prim width started source) done
      (.call (.inl (.bridge session)) next)) :
    ∃ init secret dcIdx, Honoured prim started source done session init secret dcIdx ∧
      ∀ plain, Sends started.listenFaketlsDomain source
          (init.toList ++ (clientSend prim init secret).mask prim.ks plain) →
        (∀ ws framing, session.upstream = .ws ws framing → ∀ labels state,
          (wsSession prim width framing session.relayInit session.ciphers session.proto).run
              labels = some state →
            Arrives prim session.relayInit session.reader labels state.main
              state.accepted.flatten plain) ∧
        (∀ dst, session.upstream = .tcp dst → ∀ labels state,
          (socketSession prim .raw session.relayInit.toList session.ciphers).run labels =
              some state →
            Arrives prim session.relayInit session.reader labels state.main state.accepted
              plain) := by
  obtain ⟨init, secret, dcIdx, hhonoured⟩ :=
    handleClient_honours.allowed_of_reaches hreaches session rfl
  have henc : session.ciphers.tgEnc = peerReceive session.relayInit := by
    rw [hhonoured.ciphers]
  have hdec : session.ciphers.cltDec = clientSend prim init secret := by
    rw [hhonoured.ciphers]
  refine ⟨init, secret, dcIdx, hhonoured, fun plain hsends => ?_⟩
  obtain ⟨later, hlater, hholds⟩ := hhonoured.stream _ hsends (by simp)
  obtain rfl := List.append_cancel_left hlater
  refine ⟨?_, ?_⟩
  · intro ws framing _ labels state hrun
    exact .of_reads hholds (hdec ▸ wsSession_telegramReads henc hrun)
  · intro dst _ labels state hrun
    exact .of_reads hholds (hdec ▸ socketSession_telegramReads henc hrun)

theorem mask_zeroPrimitives (cipher : AesCtr256) (bytes : Bytes) :
    cipher.mask zeroPrimitives.ks bytes = bytes := by
  have hxor : ∀ pos, xorFrom (zeroPrimitives.ks cipher.seed) pos bytes = bytes := by
    induction bytes with
    | nil => exact fun _ => rfl
    | cons byte rest ih => exact fun pos => congrArg₂ List.cons UInt8.xor_zero (ih (pos + 1))
  exact hxor cipher.pos

/-- A listener without FakeTLS. -/
def plainStarted : Started Foundation.Hex.standard where
  config := { secrets := [""], dcIp := [(2, "149.154.167.220")] }
  normalizedSecrets := [[]]
  decoded := by decide

/-- The init and a packet of four bytes, in one piece. -/
def plainSource : Source UInt8 := [sampleInit ++ [1, 10, 11, 12, 13]]

/-- The packet is read and sent, and the client goes away. -/
def plainLabels : List Label :=
  [.sent, .chunk [1, 10, 11, 12, 13], .sent, .eof, .finished, .joinUpload]

/-- A pooled connection is taken for the client. -/
theorem handleClient_plainSource :
    ∃ (done : Trace (handlerSig Unit Unit)) (session : Session Unit Unit)
      (next : Unit → Handler Unit Unit Unit),
      Reaches (handleClient zeroHmac zeroPrimitives .bits64 plainStarted plainSource) done
        (.call (.inl (.bridge session)) next) ∧
      session.upstream = .ws () .packets ∧ session.reader = .plain [[1, 10, 11, 12, 13]] ∧
      ((wsSession zeroPrimitives .bits64 .packets session.relayInit session.ciphers
        session.proto).run plainLabels).map State.main = some (.closed .client 5 0) := by
  let sig := handlerSig Unit Unit
  set_option maxRecDepth 8000 in
  exact ⟨_, _, _, @Reaches.call sig _ (.inl .relayDraws) _
    ([List.Vector.replicate 64 1], List.Vector.replicate 2 0) _ _
    (@Reaches.call sig _ (.inr (.active _)) _ false _ _
      (@Reaches.call sig _ (.inr (.active _)) _ false _ _
        (@Reaches.call sig _ (.inr (.poolGet _ _ _ _ _)) _ (some ()) _ _ (.refl _)))),
    rfl, rfl, by decide +kernel⟩

/-- Telegram has the packet. -/
theorem client_reaches_telegram_one_packet :
    ∃ (done : Trace (handlerSig Unit Unit)) (session : Session Unit Unit)
      (next : Unit → Handler Unit Unit Unit) (state : State Upload Bytes),
      Reaches (handleClient zeroHmac zeroPrimitives .bits64 plainStarted plainSource) done
        (.call (.inl (.bridge session)) next) ∧
      (wsSession zeroPrimitives .bits64 .packets session.relayInit session.ciphers
        session.proto).run plainLabels = some state ∧
      state.main = .closed .client 5 0 ∧
      TelegramReadsAll zeroPrimitives session.relayInit state.accepted.flatten
        [1, 10, 11, 12, 13] := by
  obtain ⟨done, session, next, hreaches, hupstream, hreader, hends⟩ := handleClient_plainSource
  obtain ⟨state, hrun, hmain⟩ := Option.map_eq_some_iff.mp hends
  obtain ⟨init, secret, dcIdx, hhonoured, harrives⟩ := client_reaches_telegram _ _ _ _ _ hreaches
  -- the keystream is zero, so the client's bytes are the packet itself
  have hsends : Sends plainStarted.listenFaketlsDomain plainSource (init.toList ++
      (clientSend zeroPrimitives init secret).mask zeroPrimitives.ks [1, 10, 11, 12, 13]) := by
    obtain ⟨later, hlater, -⟩ :=
      hhonoured.stream (sampleInit ++ [1, 10, 11, 12, 13]) (List.append_nil _) (by decide)
    obtain ⟨hinit, -⟩ := List.append_inj hlater (by simp [sampleInit, protoTagAbridged])
    rw [← hinit, mask_zeroPrimitives]
    exact List.append_nil _
  have hall := ((harrives _ hsends).1 () .packets hupstream _ state hrun).whole 5 0
    ⟨2, hreader ▸ rfl⟩ hmain (by decide)
  exact ⟨done, session, next, state, hreaches, hrun, hmain, hall⟩

end TgWsProxy.Session
