import TgWsProxy.Crypto.Agreement
import TgWsProxy.Relay.Framing
import TgWsProxy.Session.Teardown
import TgWsProxy.Splitter.Flushing

/-!
# The sessions of the three bridges

The upload loops of `bridge_ws`, `bridge_tcp` and `bridge_relay` as machines from reads to
what is sent, each in a session with its download. At every moment of every session the
peer can decrypt a beginning of what the client sent, and nothing else.
-/

namespace TgWsProxy.Session

open Foundation Foundation.Keystream Foundation.Machine Foundation.Stream Foundation.Transition
open TgWsProxy.Crypto TgWsProxy.Splitter
open Bridge (WsFraming)
open Relay (Framing)

/-! ## The upload loops -/

/-- The ciphers of an upload, and the splitter of `bridge_ws` with packet framing. -/
structure Upload where
  cltDec : AesCtr256
  tgEnc : AesCtr256
  splitter : Option MsgSplitter

section Machines

variable (prim : Primitives) (width : PointerWidth)

/-- From a read to the messages of `bridge_ws`, and from the end to the flush. -/
def wsUpload : Transducer Upload Bytes Bytes where
  step upload chunk :=
    let (plaintext, cltDec) := upload.cltDec.applyKeystream prim.ks chunk
    match upload.splitter with
    | some splitter =>
        match splitter.splitAndEncrypt prim width plaintext upload.tgEnc with
        | .error _ => none
        | .ok (parts, splitter, tgEnc) => some (⟨cltDec, tgEnc, some splitter⟩, parts)
    | none =>
        let (ciphertext, tgEnc) := upload.tgEnc.applyKeystream prim.ks plaintext
        some (⟨cltDec, tgEnc, none⟩, [ciphertext])
  finish upload :=
    match upload.splitter with
    | some splitter => splitter.flush.1
    | none => []

/-- From a read to the bytes that `bridge_tcp` and `bridge_relay` write to a socket, of
which any number may be written when the task is dropped. -/
def socketUpload (framing : Framing) : Transducer Upload Bytes UInt8 where
  step upload chunk :=
    let (plaintext, cltDec) := upload.cltDec.applyKeystream prim.ks chunk
    let (ciphertext, tgEnc) := upload.tgEnc.applyKeystream prim.ks plaintext
    some ({ upload with cltDec, tgEnc }, (framing.frames ciphertext).flatten)
  finish _ := []

/-- The upload of `bridge_ws` before its first read. -/
def Upload.initial (framing : WsFraming) (ciphers : ConnectionCiphers) (proto : ProtoTag) :
    Upload :=
  ⟨ciphers.cltDec, ciphers.tgEnc,
    if framing = .packets then some (MsgSplitter.new proto) else none⟩

/-- `bridge_ws`: the upload sends the relay init itself. -/
def wsSession (framing : WsFraming) (relayInit : Block 64) (ciphers : ConnectionCiphers)
    (proto : ProtoTag) : System (State Upload Bytes) Label :=
  sessionSystem (wsUpload prim width) (.initial framing ciphers proto) [] [relayInit.toList]

/-- `bridge_tcp` and `bridge_relay`, from the moment the bytes `before` are written: the
relay init of the one, the handshake with the upstream proxy of the other. -/
def socketSession (framing : Framing) (before : Bytes) (ciphers : ConnectionCiphers) :
    System (State Upload UInt8) Label :=
  sessionSystem (socketUpload prim framing) ⟨ciphers.cltDec, ciphers.tgEnc, none⟩ before []

end Machines

variable {prim : Primitives} {width : PointerWidth}

/-! ## The messages of a WebSocket upload -/

namespace Upload

/-- The packet under assembly. -/
def held (upload : Upload) : Bytes :=
  match upload.splitter with
  | some splitter => splitter.packet
  | none => []

/-- The splitter is one that the loop can have come to. -/
def Resumable (prim : Primitives) (proto : ProtoTag) (upload : Upload) : Prop :=
  ∀ splitter, upload.splitter = some splitter → Resumes prim proto splitter upload.tgEnc

theorem initial_resumable (framing : WsFraming) (ciphers : ConnectionCiphers) (proto : ProtoTag) :
    (initial framing ciphers proto).Resumable prim proto := by
  cases framing with
  | packets =>
      rintro _ ⟨⟩
      exact (@new_tracks prim proto ciphers.tgEnc []).resumes
  | tunnel => nofun

theorem held_initial (framing : WsFraming) (ciphers : ConnectionCiphers) (proto : ProtoTag) :
    (initial framing ciphers proto).held = [] := by
  cases framing <;> rfl

end Upload

/-- One read: it never breaks the loop, and what is sent with what is held back is what was
held back before and the ciphertext of the read. -/
theorem wsUpload_step {proto : ProtoTag} {upload : Upload}
    (hresumable : upload.Resumable prim proto) (chunk : Bytes) :
    ∃ next output, (wsUpload prim width).step upload chunk = some (next, output) ∧
      next.Resumable prim proto ∧ next.cltDec = upload.cltDec.advance chunk.length ∧
      next.tgEnc = upload.tgEnc.advance chunk.length ∧
      (upload.splitter = none → next.splitter = none) ∧
      output.flatten ++ next.held =
        upload.held ++ upload.tgEnc.mask prim.ks (upload.cltDec.mask prim.ks chunk) := by
  obtain ⟨cltDec, tgEnc, splitter⟩ := upload
  cases splitter with
  | none =>
      refine ⟨_, _, rfl, nofun, rfl, ?_, fun _ => rfl, ?_⟩
      · change tgEnc.advance (cltDec.mask prim.ks chunk).length = _
        rw [Cipher.mask_length]
      · simp [Upload.held]
  | some splitter =>
      have hresumes : Resumes prim proto splitter tgEnc := hresumable splitter rfl
      obtain ⟨parts, splitter', tgEnc', hcall, hresumes', -⟩ :=
        hresumes.splitAndEncrypt width (cltDec.mask prim.ks chunk)
      obtain ⟨hconserved, henc, -⟩ :=
        MsgSplitter.splitAndEncrypt_conserved prim width hresumes.settled hcall
      refine ⟨⟨cltDec.advance chunk.length, tgEnc', some splitter'⟩, parts, ?_, ?_, rfl, ?_, nofun,
        hconserved⟩
      · simp only [wsUpload, Cipher.applyKeystream, hcall]
      · rintro _ ⟨⟩
        exact hresumes'
      · rw [henc, Cipher.mask_length]

theorem wsUpload_feed {proto : ProtoTag} (reads : List Bytes) {upload : Upload}
    (hresumable : upload.Resumable prim proto) :
    ∃ last outputs, (wsUpload prim width).feed upload reads = some (last, outputs) ∧
      (upload.splitter = none → last.splitter = none) ∧
      outputs.flatten ++ last.held =
        upload.held ++ upload.tgEnc.mask prim.ks (upload.cltDec.mask prim.ks reads.flatten) := by
  induction reads generalizing upload with
  | nil => exact ⟨upload, [], rfl, id, by simp⟩
  | cons chunk reads ih =>
      obtain ⟨next, output, hstep, hnext, hdec, henc, htunnel, houtput⟩ :=
        @wsUpload_step prim width _ _ hresumable chunk
      obtain ⟨last, outputs, hfeed, hrest, houtputs⟩ := ih hnext
      refine ⟨last, output ++ outputs, ?_, fun hnone => hrest (htunnel hnone), ?_⟩
      · simp only [Transducer.feed, hstep, hfeed, Option.map_some]
      · rw [List.flatten_append, List.append_assoc, houtputs, ← List.append_assoc, houtput, hdec,
          henc, List.append_assoc, List.flatten_cons, Cipher.mask_append, Cipher.mask_append,
          Cipher.mask_length]

theorem wsUpload_finish (upload : Upload) :
    ((wsUpload prim width).finish upload).flatten = upload.held ∧
      ((wsUpload prim width).finish upload).length ≤ 1 := by
  unfold wsUpload Upload.held
  dsimp only
  split
  next splitter =>
    unfold MsgSplitter.flush
    split
    next hempty => exact ⟨hempty.symm, Nat.zero_le _⟩
    next => exact ⟨List.flatten_singleton, Nat.le_refl _⟩
  next => exact ⟨rfl, Nat.zero_le _⟩

/-- A beginning of the ciphertext decrypts to a beginning of the plaintext. -/
theorem mask_beginning {cipher : AesCtr256} {body plain : Bytes}
    (hbody : body <+: cipher.mask prim.ks plain) : cipher.mask prim.ks body <+: plain := by
  obtain ⟨rest, hrest⟩ := hbody
  have hplain := congrArg (cipher.mask prim.ks) hrest
  rw [Cipher.mask_mask, Cipher.mask_append] at hplain
  exact ⟨_, hplain⟩

/-- What the accounts of an upload come to for the peer. -/
theorem Handed.messages {proto : ProtoTag} {upload : Upload} {opening : Bytes} {reads : List Bytes}
    {accepted : List Bytes} {count : Nat} (hresumable : upload.Resumable prim proto)
    (hheld : upload.held = [])
    (hhanded : Handed (wsUpload prim width) upload [] [opening] reads accepted count) :
    (accepted = [] ∧ reads = []) ∨ ∃ body, accepted = opening :: body ∧
      upload.tgEnc.mask prim.ks body.flatten <+: upload.cltDec.mask prim.ks reads.flatten ∧
      (upload.splitter = none → count ≤ body.flatten.length) := by
  have hfed := fun reads => @wsUpload_feed prim width _ reads _ hresumable
  obtain ⟨final, all, hfeeds, -, hall⟩ := hfed reads
  rw [hheld, List.nil_append] at hall
  rcases hhanded.split (by rw [hfeeds]; rfl) with ⟨rfl, rfl, -, hmost⟩ |
    ⟨counted, last, outputs, sent, unsent, hfeed, rfl, ⟨rest, rfl⟩, rfl, hnext⟩
  · rcases List.prefix_cons_iff.mp hmost with rfl | ⟨body, rfl, hbody⟩
    · exact .inl ⟨rfl, rfl⟩
    · obtain rfl := List.prefix_nil.mp hbody
      exact .inr ⟨[], rfl, List.prefix_rfl, fun _ => Nat.zero_le _⟩
  · obtain ⟨_, _, hfeed', htunnel, houtputs⟩ := hfed counted
    cases hfeed.symm.trans hfeed'
    refine .inr ⟨outputs ++ sent, rfl, mask_beginning ?_, ?_⟩
    · rcases hnext with ⟨hcounted, hflush⟩ | ⟨chunk, next, hreads, hstep⟩
      · rw [← hcounted] at hfeeds hall
        cases hfeed.symm.trans hfeeds
        refine ⟨unsent.flatten, ?_⟩
        rw [← hcounted, ← hall, ← List.flatten_append, List.append_assoc, hflush,
          List.flatten_append, (wsUpload_finish _).1]
      · rw [hreads, (wsUpload prim width).feed_concat hfeed hstep] at hfeeds
        cases hfeeds
        refine ⟨unsent.flatten ++ final.held, ?_⟩
        rw [← hall, ← List.append_assoc, ← List.flatten_append, List.append_assoc]
    · intro hnone
      have hlength := congrArg List.length houtputs
      simp only [Upload.held, htunnel hnone, hnone, List.nil_append, List.append_nil,
        Cipher.mask_length] at hlength
      rw [List.flatten_append, List.length_append, hlength]
      exact Nat.le_add_right _ _

/-- What is handed over in full, the peer decrypts in full. -/
theorem messages_of_whole {proto : ProtoTag} {upload : Upload} {opening : Bytes}
    {reads accepted : List Bytes} (hresumable : upload.Resumable prim proto)
    (hheld : upload.held = [])
    (hwhole : (wsUpload prim width).feed upload reads = none ∨
      Whole (wsUpload prim width) upload [] [opening] reads accepted) :
    ∃ body, accepted = opening :: body ∧
      upload.tgEnc.mask prim.ks body.flatten = upload.cltDec.mask prim.ks reads.flatten := by
  obtain ⟨last, outputs, hfeed, -, houtputs⟩ := @wsUpload_feed prim width _ reads _ hresumable
  rcases hwhole with hnone | ⟨last', outputs', hfeed', haccepted⟩
  · rw [hfeed] at hnone
    cases hnone
  · cases hfeed.symm.trans hfeed'
    refine ⟨outputs ++ (wsUpload prim width).finish last, haccepted, ?_⟩
    rw [List.flatten_append, (wsUpload_finish last).1, houtputs, hheld, List.nil_append]
    exact Cipher.mask_mask _ _ _

/-- Every session of `bridge_ws`, at every moment and however its two directions interleave
and end. The peer has nothing, or the relay init and messages from which it decrypts a
beginning of what the client sent. The log of a closed session counts no byte that was not
read, and with tunnel framing none that was not sent; when the client ended it and no write
failed, the peer decrypts everything. -/
theorem ws_session_transparent (framing : WsFraming) (relayInit : Block 64)
    (ciphers : ConnectionCiphers) (proto : ProtoTag) {labels : List Label}
    {state : State Upload Bytes}
    (hrun : (wsSession prim width framing relayInit ciphers proto).run labels = some state) :
    ((state.accepted = [] ∧ chunks labels = []) ∨
      ∃ body, state.accepted = relayInit.toList :: body ∧
        ciphers.tgEnc.mask prim.ks body.flatten <+:
          ciphers.cltDec.mask prim.ks (chunks labels).flatten) ∧
    ∀ closedBy up down, state.main = .closed closedBy up down →
      up ≤ (chunks labels).flatten.length ∧
      (framing = .tunnel → up ≤ state.accepted.tail.flatten.length) ∧
      (closedBy = .client → .sendFailed ∉ labels →
        ∃ body, state.accepted = relayInit.toList :: body ∧
          ciphers.tgEnc.mask prim.ks body.flatten =
            ciphers.cltDec.mask prim.ks (chunks labels).flatten) := by
  have hfinish : ∀ upload, ((wsUpload prim width).finish upload).length ≤ 1 :=
    fun upload => (wsUpload_finish upload).2
  obtain ⟨hsound, -⟩ := run_invariants hfinish hrun
  have hresumable := @Upload.initial_resumable prim framing ciphers proto
  have hheld := Upload.held_initial framing ciphers proto
  constructor
  · rcases hsound.stop.2.messages hresumable hheld with hnothing | ⟨body, hbody, hplain, -⟩
    · exact .inl hnothing
    · exact .inr ⟨body, hbody, hplain⟩
  · intro closedBy up down hclosed
    have hhanded := handed_of_closed hfinish hrun hclosed
    have hcount := hhanded.count_le
    refine ⟨hcount, ?_, ?_⟩
    · rintro rfl
      rcases hhanded.messages hresumable hheld with ⟨-, hreads⟩ | ⟨body, hbody, -, htunnelled⟩
      · rw [hreads] at hcount
        exact hcount.trans (Nat.zero_le _)
      · rw [hbody]
        exact htunnelled rfl
    · rintro rfl hsent
      exact messages_of_whole hresumable hheld (whole_of_closed hfinish hrun hclosed hsent)

/-- Upstream hangs up in the middle of the second packet: five bytes are sent, and seven are
logged. -/
theorem ws_session_transparent_interrupted :
    let relayInit : Block 64 := ⟨List.replicate 64 0x35, by simp⟩
    let cipher : AesCtr256 := ⟨⟨List.Vector.replicate 32 1, List.Vector.replicate 16 2⟩, 0⟩
    let ciphers : ConnectionCiphers := ⟨cipher, cipher, cipher, cipher⟩
    let wire := cipher.mask samplePrimitives.ks [1, 10, 11, 12, 13, 2, 20]
    ∃ state, (wsSession samplePrimitives .bits64 .packets relayInit ciphers .abridged).run
        [.sent, .chunk wire, .sent, .downloadEnded, .joinDownload, .cancelled, .joinAborted] =
          some state ∧
      state.main = .closed .upstream 7 0 ∧ 7 ≤ wire.length ∧
      ∃ body, state.accepted = relayInit.toList :: body ∧ body.flatten.length = 5 ∧
        cipher.mask samplePrimitives.ks body.flatten <+: [1, 10, 11, 12, 13, 2, 20] := by
  intro relayInit cipher ciphers wire
  have hrun : ((wsSession samplePrimitives .bits64 .packets relayInit ciphers .abridged).run
      [.sent, .chunk wire, .sent, .downloadEnded, .joinDownload, .cancelled, .joinAborted]).map
        (fun state => (state.main, state.accepted.tail.flatten.length)) =
      some (.closed .upstream 7 0, 5) := by
    subst relayInit cipher ciphers wire
    decide +kernel
  obtain ⟨state, hstate, hends⟩ := Option.map_eq_some_iff.mp hrun
  obtain ⟨hmain, hlength⟩ := Prod.mk.inj hends
  obtain ⟨hsent, hclosed⟩ := ws_session_transparent .packets relayInit ciphers .abridged hstate
  refine ⟨state, hstate, hmain, (hclosed .upstream 7 0 hmain).1, ?_⟩
  rcases hsent with ⟨-, hnothing⟩ | ⟨body, hbody, hplain⟩
  · cases hnothing
  · rw [hbody] at hlength
    change cipher.mask samplePrimitives.ks body.flatten <+:
      cipher.mask samplePrimitives.ks (wire ++ []) at hplain
    rw [List.append_nil, Cipher.mask_mask] at hplain
    exact ⟨body, hbody, hlength, hplain⟩

/-- The splitter of an upload stands at the end of what was read. -/
theorem wsUpload_feed_tracks {proto : ProtoTag} {origin : AesCtr256} {whole : Bytes}
    (reads : List Bytes) {upload last : Upload} {splitter : MsgSplitter} {outputs : List Bytes}
    {pos : Nat} (hsplitter : upload.splitter = some splitter)
    (htracks : Tracks prim proto origin whole pos splitter upload.tgEnc)
    (hpos : pos ≤ whole.length)
    (hreads : whole.drop pos = upload.cltDec.mask prim.ks reads.flatten)
    (hfeed : (wsUpload prim width).feed upload reads = some (last, outputs)) :
    ∃ final, last.splitter = some final ∧
      Tracks prim proto origin whole whole.length final last.tgEnc := by
  induction reads generalizing upload splitter pos outputs with
  | nil =>
      cases hfeed
      have hend : pos = whole.length := by
        have hlength := congrArg List.length hreads
        simp only [List.length_drop, List.flatten_nil, Cipher.mask_nil, List.length_nil] at hlength
        omega
      exact ⟨splitter, hsplitter, hend ▸ htracks⟩
  | cons chunk reads ih =>
      rw [List.flatten_cons, Cipher.mask_append] at hreads
      obtain ⟨hwithin, hchunk, hrest⟩ := extract_of_drop_eq hpos hreads
      obtain ⟨next, enc, hcall, hnext⟩ := splitAndEncrypt_tracks width htracks
        (Nat.le_add_right pos _) hwithin
      rw [hchunk] at hcall
      have hstep : (wsUpload prim width).step upload chunk =
          some (⟨upload.cltDec.advance chunk.length, enc, some next⟩,
            (layout proto whole).expectedParts (origin.mask prim.ks whole) pos
              (pos + (upload.cltDec.mask prim.ks chunk).length)) := by
        simp only [wsUpload, Cipher.applyKeystream, hsplitter, hcall]
      rw [Transducer.feed, hstep] at hfeed
      obtain ⟨rest, hrestFeed, heq⟩ := Option.map_eq_some_iff.mp hfeed
      cases heq
      exact ih rfl hnext hwithin hrest hrestFeed

/-- From the first read on, what is held back is what the reference cut of the stream leaves
unfinished. -/
theorem wsUpload_feed_initial (framing : WsFraming) (ciphers : ConnectionCiphers)
    (proto : ProtoTag) (reads : List Bytes) {last : Upload} {outputs : List Bytes}
    (hfeed : (wsUpload prim width).feed (.initial framing ciphers proto) reads =
      some (last, outputs)) :
    let plain := ciphers.cltDec.mask prim.ks reads.flatten
    outputs.flatten ++ last.held = ciphers.tgEnc.mask prim.ks plain ∧
      (framing = .tunnel → last.held = []) ∧
      (framing = .packets → last.held =
        ((layout proto plain).expectedFlush (ciphers.tgEnc.mask prim.ks plain)).flatten) := by
  intro plain
  obtain ⟨last', outputs', hfeed', hnone, hall⟩ :=
    @wsUpload_feed prim width _ reads _ (Upload.initial_resumable framing ciphers proto)
  cases hfeed.symm.trans hfeed'
  rw [Upload.held_initial, List.nil_append] at hall
  refine ⟨hall, ?_, ?_⟩
  · rintro rfl
    have hsplitter := hnone rfl
    simp only [Upload.held, hsplitter]
  · rintro rfl
    obtain ⟨final, hfinal, htracks⟩ := wsUpload_feed_tracks reads rfl
      (@new_tracks prim proto ciphers.tgEnc plain) (Nat.zero_le _) List.drop_zero hfeed
    have hflush : (wsUpload prim width).finish last =
        (layout proto plain).expectedFlush (ciphers.tgEnc.mask prim.ks plain) := by
      simp only [wsUpload, hfinal]
      exact htracks.flush_eq
    rw [← hflush, (wsUpload_finish last).1]

/-- An upload of `bridge_ws` that waits for its client has sent everything, but for the packet
that is not complete yet: a client that waits for an answer to whole packets is not kept
waiting by the proxy. -/
theorem ws_session_prompt (framing : WsFraming) (relayInit : Block 64)
    (ciphers : ConnectionCiphers) (proto : ProtoTag) {labels : List Label}
    {state : State Upload Bytes}
    (hrun : (wsSession prim width framing relayInit ciphers proto).run labels = some state)
    (hreading : state.phase = .reading) :
    let plain := ciphers.cltDec.mask prim.ks (chunks labels).flatten
    ∃ body held, state.accepted = relayInit.toList :: body ∧
      body.flatten ++ held = ciphers.tgEnc.mask prim.ks plain ∧
      (framing = .tunnel → held = []) ∧
      (framing = .packets →
        held =
          ((layout proto plain).expectedFlush (ciphers.tgEnc.mask prim.ks plain)).flatten) := by
  intro plain
  obtain ⟨hsound, -⟩ := run_invariants (fun upload => (wsUpload_finish upload).2) hrun
  obtain ⟨outputs, hfeed, haccepted⟩ := hsound.reading hreading
  obtain ⟨hall, htunnel, hpackets⟩ :=
    wsUpload_feed_initial framing ciphers proto (chunks labels) hfeed
  exact ⟨outputs, state.loop.held, haccepted, hall, htunnel, hpackets⟩

/-- The first packet is on its way, and the two bytes of the second one are held back. -/
theorem ws_session_prompt_second_packet :
    let relayInit : Block 64 := ⟨List.replicate 64 0x35, by simp⟩
    let cipher : AesCtr256 := ⟨⟨List.Vector.replicate 32 1, List.Vector.replicate 16 2⟩, 0⟩
    let ciphers : ConnectionCiphers := ⟨cipher, cipher, cipher, cipher⟩
    let wire := cipher.mask samplePrimitives.ks [1, 10, 11, 12, 13, 2, 20]
    ∃ state, (wsSession samplePrimitives .bits64 .packets relayInit ciphers .abridged).run
        [.sent, .chunk wire, .sent] = some state ∧ state.phase = .reading ∧
      ∃ body held, state.accepted = relayInit.toList :: body ∧ held.length = 2 ∧
        body.flatten ++ held = wire := by
  intro relayInit cipher ciphers wire
  have hrun : ((wsSession samplePrimitives .bits64 .packets relayInit ciphers .abridged).run
      [.sent, .chunk wire, .sent]).map (fun state => (state.phase, state.accepted.flatten.length)) =
      some (.reading, 69) := by
    subst relayInit cipher ciphers wire
    decide +kernel
  obtain ⟨state, hstate, hends⟩ := Option.map_eq_some_iff.mp hrun
  obtain ⟨hphase, hlength⟩ := Prod.mk.inj hends
  obtain ⟨body, held, haccepted, hall, -, -⟩ :=
    ws_session_prompt .packets relayInit ciphers .abridged hstate hphase
  have hchunks : (chunks [.sent, .chunk wire, .sent]).flatten = wire := List.append_nil wire
  rw [hchunks] at hall
  change body.flatten ++ held = cipher.mask samplePrimitives.ks (cipher.mask _ wire) at hall
  rw [show cipher.mask samplePrimitives.ks wire = _ from Cipher.mask_mask _ _ _] at hall
  refine ⟨state, hstate, hphase, body, held, haccepted, ?_, hall⟩
  have htotal := congrArg List.length hall
  rw [haccepted] at hlength
  simp only [List.flatten_cons, List.length_append, List.Vector.toList_length] at hlength
  rw [List.length_append, Cipher.mask_length] at htotal
  change _ = 7 at htotal
  omega

/-! ## The bytes of a socket upload -/

theorem socketUpload_step (framing : Framing) (upload : Upload) (chunk : Bytes) :
    (socketUpload prim framing).step upload chunk =
      some ({ upload with
        cltDec := upload.cltDec.advance chunk.length
        tgEnc := upload.tgEnc.advance chunk.length },
        (framing.frames
          (upload.tgEnc.mask prim.ks (upload.cltDec.mask prim.ks chunk))).flatten) := by
  simp only [socketUpload, Cipher.applyKeystream, Cipher.mask_length]

theorem socketUpload_feed (framing : Framing) (upload : Upload) (reads : List Bytes) :
    ∃ outputs, (socketUpload prim framing).feed upload reads =
        some ({ upload with
          cltDec := upload.cltDec.advance reads.flatten.length
          tgEnc := upload.tgEnc.advance reads.flatten.length }, outputs) ∧
      framing.Carries outputs
        (upload.tgEnc.mask prim.ks (upload.cltDec.mask prim.ks reads.flatten)) := by
  induction reads using List.reverseRecOn with
  | nil => exact ⟨[], rfl, framing.carries_nil⟩
  | append_singleton reads chunk ih =>
      obtain ⟨outputs, hfeed, hcarries⟩ := ih
      have hnext := (socketUpload prim framing).feed_concat hfeed
        (socketUpload_step framing _ chunk)
      simp only [Cipher.advance_advance, ← List.length_append] at hnext
      rw [List.flatten_append, List.flatten_singleton, Cipher.mask_append, Cipher.mask_append,
        Cipher.mask_length]
      exact ⟨_, hnext, hcarries.append _⟩

/-- An upload to a socket that waits for its client has sent everything. -/
theorem socket_session_reading {framing : Framing} {before : Bytes} {ciphers : ConnectionCiphers}
    {labels : List Label} {state : State Upload UInt8}
    (hrun : (socketSession prim framing before ciphers).run labels = some state)
    (hreading : state.phase = .reading) :
    ∃ body, state.accepted = before ++ body ∧ framing.Carries body
      (ciphers.tgEnc.mask prim.ks (ciphers.cltDec.mask prim.ks (chunks labels).flatten)) := by
  have hfinish : ∀ upload, ((socketUpload prim framing).finish upload).length ≤ 1 :=
    fun _ => Nat.zero_le 1
  obtain ⟨hsound, -⟩ := run_invariants hfinish hrun
  obtain ⟨outputs, hfeed, haccepted⟩ := hsound.reading hreading
  obtain ⟨all, hfeeds, hcarries⟩ :=
    @socketUpload_feed prim framing ⟨ciphers.cltDec, ciphers.tgEnc, none⟩ (chunks labels)
  obtain rfl : outputs = all := congrArg Prod.snd (Option.some.inj (hfeed.symm.trans hfeeds))
  rw [List.append_nil] at haccepted
  exact ⟨outputs, haccepted, hcarries⟩

/-- What the accounts of an upload come to for a peer that reads them. -/
theorem Handed.bytes {framing : Framing} {upload : Upload} {before : Bytes} {reads : List Bytes}
    {accepted : Bytes} {count : Nat}
    (hhanded : Handed (socketUpload prim framing) upload before [] reads accepted count) :
    ∃ body, accepted = before ++ body ∧ ∀ source : Source UInt8, source.elements = body →
      ∃ got, framing.Pending source got ∧ count ≤ got.length ∧
        upload.tgEnc.mask prim.ks got <+: upload.cltDec.mask prim.ks reads.flatten := by
  obtain ⟨all, hfeeds, hall⟩ := @socketUpload_feed prim framing upload reads
  rcases hhanded.split (by rw [hfeeds]; rfl) with ⟨rfl, rfl, ⟨body, rfl⟩, hmost⟩ |
    ⟨counted, last, outputs, sent, unsent, hfeed, rfl, ⟨rest, rfl⟩, rfl, hnext⟩
  · obtain rfl := List.prefix_nil.mp ((List.prefix_append_right_inj before).mp hmost)
    refine ⟨[], rfl, fun source hsource => ?_⟩
    obtain ⟨got, hgot, hbeginning, -⟩ :=
      @Framing.Carries.received framing [] [] source framing.carries_nil (by rw [hsource])
    obtain rfl := List.prefix_nil.mp hbeginning
    exact ⟨[], hgot, Nat.zero_le _, List.nil_prefix⟩
  · obtain ⟨outputs', hfeed', hcarries⟩ := @socketUpload_feed prim framing upload counted
    cases hfeed.symm.trans hfeed'
    refine ⟨outputs ++ sent, by simp, fun source hsource => ?_⟩
    -- What is sent of the next read, if there was one.
    obtain ⟨data, hdata, hplain⟩ : ∃ data, sent <+: (framing.frames data).flatten ∧
        upload.tgEnc.mask prim.ks (upload.cltDec.mask prim.ks counted.flatten) ++ data <+:
          upload.tgEnc.mask prim.ks (upload.cltDec.mask prim.ks (counted ++ rest).flatten) := by
      rcases hnext with ⟨hcounted, hflush⟩ | ⟨chunk, next, hreads, hstep⟩
      · obtain ⟨rfl, -⟩ := List.append_eq_nil_iff.mp hflush
        refine ⟨[], List.nil_prefix, ?_⟩
        rw [← hcounted, List.append_nil]
      · rw [socketUpload_step] at hstep
        refine ⟨_, ⟨unsent, (Prod.ext_iff.mp (Option.some.inj hstep)).2.symm⟩, ?_⟩
        rw [hreads, List.flatten_append, List.flatten_singleton, Cipher.mask_append,
          Cipher.mask_append, Cipher.mask_length]
    obtain ⟨more, hmore, hbeginning, -⟩ := @Framing.Carries.received framing _ _ [sent]
      (framing.carries_nil.append data) (by simpa [Source.elements] using hdata)
    refine ⟨_, hcarries.pending_append hmore hsource, ?_, mask_beginning ?_⟩
    · rw [List.length_append, Cipher.mask_length, Cipher.mask_length]
      exact Nat.le_add_right _ _
    · exact ((List.prefix_append_right_inj _).mpr hbeginning).trans hplain

theorem socket_session_whole {framing : Framing} {before : Bytes} {ciphers : ConnectionCiphers}
    {labels : List Label} {state : State Upload UInt8} {up down : Nat}
    (hrun : (socketSession prim framing before ciphers).run labels = some state)
    (hclosed : state.main = .closed .client up down) (hsent : .sendFailed ∉ labels) :
    Whole (socketUpload prim framing) ⟨ciphers.cltDec, ciphers.tgEnc, none⟩ before []
      (chunks labels) state.accepted := by
  obtain ⟨outputs, hfeed, -⟩ :=
    @socketUpload_feed prim framing ⟨ciphers.cltDec, ciphers.tgEnc, none⟩ (chunks labels)
  have hfinish : ∀ upload, ((socketUpload prim framing).finish upload).length ≤ 1 :=
    fun _ => Nat.zero_le 1
  refine (whole_of_closed hfinish hrun hclosed hsent).resolve_left fun hnone => ?_
  rw [hfeed] at hnone
  cases hnone

/-- Every session of `bridge_tcp` and `bridge_relay`, at every moment and however its two
directions interleave and end. Behind what was written before, the peer reads a beginning of
what the client sent, in whatever pieces it arrives; the log of a closed session counts no
byte that the peer cannot read, and when the client ended it and no write failed, the peer
reads everything. -/
theorem socket_session_transparent (framing : Framing) (before : Bytes)
    (ciphers : ConnectionCiphers) {labels : List Label} {state : State Upload UInt8}
    (hrun : (socketSession prim framing before ciphers).run labels = some state) :
    ∃ body, state.accepted = before ++ body ∧
      ∀ source : Source UInt8, source.elements = body →
        ∃ got, framing.Pending source got ∧
          ciphers.tgEnc.mask prim.ks got <+: ciphers.cltDec.mask prim.ks (chunks labels).flatten ∧
          ∀ closedBy up down, state.main = .closed closedBy up down →
            up ≤ got.length ∧
            (closedBy = .client → .sendFailed ∉ labels →
              ciphers.tgEnc.mask prim.ks got =
                ciphers.cltDec.mask prim.ks (chunks labels).flatten) := by
  have hfinish : ∀ upload, ((socketUpload prim framing).finish upload).length ≤ 1 :=
    fun _ => Nat.zero_le 1
  obtain ⟨hsound, hjoined, -⟩ := run_invariants hfinish hrun
  by_cases hwhole :
    Whole (socketUpload prim framing) ⟨ciphers.cltDec, ciphers.tgEnc, none⟩ before []
      (chunks labels) state.accepted
  · obtain ⟨last, outputs, hfeed, haccepted⟩ := hwhole
    obtain ⟨outputs', hfeed', hcarries⟩ :=
      @socketUpload_feed prim framing ⟨ciphers.cltDec, ciphers.tgEnc, none⟩ (chunks labels)
    cases hfeed.symm.trans hfeed'
    refine ⟨outputs, by simpa [socketUpload] using haccepted, fun source hsource => ?_⟩
    obtain ⟨got, hgot, -, hall⟩ :=
      hcarries.received (show source.elements <+: outputs by rw [hsource])
    obtain rfl := hall hsource
    refine ⟨_, hgot, by rw [Cipher.mask_mask], fun closedBy up down hclosed => ⟨?_, ?_⟩⟩
    · rw [Cipher.mask_length, Cipher.mask_length]
      exact (handed_of_closed hfinish hrun hclosed).count_le
    · exact fun _ _ => Cipher.mask_mask _ _ _
  · obtain ⟨body, hbody, hread⟩ := hsound.stop.2.bytes
    refine ⟨body, hbody, fun source hsource => ?_⟩
    obtain ⟨got, hgot, hcount, hplain⟩ := hread source hsource
    refine ⟨got, hgot, hplain, fun closedBy up down hclosed => ⟨?_, ?_⟩⟩
    · rw [closed_counter hsound hjoined hclosed]
      exact hcount
    · rintro rfl hsent
      exact absurd (socket_session_whole hrun hclosed hsent) hwhole

/-- A write that fails in the middle of the second read. -/
theorem socket_session_transparent_broken :
    let cipher : AesCtr256 := ⟨⟨List.Vector.replicate 32 1, List.Vector.replicate 16 2⟩, 0⟩
    let ciphers : ConnectionCiphers := ⟨cipher, cipher, cipher, cipher⟩
    ∃ state body, (socketSession samplePrimitives .raw [9] ciphers).run
        [.chunk [1, 2], .sent, .sent, .chunk [3, 4], .sent, .sendFailed, .joinUpload] =
          some state ∧
      state.accepted = 9 :: body ∧
      ∀ source : Source UInt8, source.elements = body →
        ∃ got, Framing.Pending .raw source got ∧ 2 ≤ got.length ∧
          cipher.mask samplePrimitives.ks got <+: cipher.mask samplePrimitives.ks [1, 2, 3, 4] := by
  intro cipher ciphers
  obtain ⟨body, hbody, hread⟩ := @socket_session_transparent samplePrimitives .raw [9] ciphers
    [.chunk [1, 2], .sent, .sent, .chunk [3, 4], .sent, .sendFailed, .joinUpload] _ rfl
  refine ⟨_, body, rfl, hbody, fun source hsource => ?_⟩
  obtain ⟨got, hgot, hplain, hclosed⟩ := hread source hsource
  exact ⟨got, hgot, (hclosed .client 2 0 rfl).1, hplain⟩

end TgWsProxy.Session
