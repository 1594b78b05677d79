import TgWsProxy.Relay.Model

/-!
# Proxies in a row

A client may reach Telegram through any number of proxies, each the upstream of the one
before. Each of them exchanges keystreams and reframes on its own; what it sends may
be held up, cut into other pieces or lost at the end. Whatever the proxies and the
connections between them do, each end sees the beginning of what the other one sent.
-/

namespace TgWsProxy.Relay

open Foundation.Keystream Foundation.Machine Foundation.Stream
open TgWsProxy.Crypto TgWsProxy.FakeTls TgWsProxy.Client
open Bridge (Carried ReadResult Sink WsEvent WsFraming bridgeTcpUpload bridgeWsUpload clientReceive
  clientSend peerReceive peerSend streamOf)

/-! ## One hop -/

/-- What a loop with the given results of its writes carries over: whole frames of a part
of the plaintext, perhaps cut where a write failed, and all of it when none fails and the
loop has the turns that it needs. -/
structure Conveys (prim : Primitives) (framing : Framing) (plain : Bytes) (results : List Bool)
    (flow : Flow) (count : Nat) : Prop where
  partly : ∃ sent onWire, sent <+: plain ∧
    framing.Carries onWire (flow.pump.enc.mask prim.ks sent) ∧
    (flow.turns prim framing count).1.wire <+: onWire
  all : (∀ result ∈ results, result = true) → plain.length + flow.inlet.messages < count →
    framing.Carries (flow.turns prim framing count).1.wire (flow.pump.enc.mask prim.ks plain)

theorem Flow.conveys {prim : Primitives} (framing : Framing) (flow : Flow) {plain : Bytes}
    {results : List Bool} (hsink : flow.pump.sink = Sink.connect results)
    (hpending : flow.inlet.Pending (flow.pump.dec.mask prim.ks plain)) (count : Nat) :
    Conveys prim framing plain results flow count := by
  obtain ⟨reached, hcarries, hall, hends⟩ := (Conveyed.connect hsink).turns hpending count
  obtain ⟨hbeginning, hideal⟩ := flow.turns_ideal prim framing count
  refine ⟨⟨_, _, List.take_prefix reached plain, hcarries, hbeginning⟩, ?_⟩
  intro hresults hcount
  rw [hideal (by rw [hsink]; exact hresults)]
  rw [hall (hends (by omega)), List.take_length] at hcarries
  exact hcarries

/-- Both directions of `bridge_relay`: what the client encrypts for this proxy goes to the
upstream proxy under the keystream of the session with it, and the answers come back
under that of the client, in the framing of each side and whatever the reads, the
failures and the breaks are. -/
theorem relay_transparent (prim : Primitives) (reader : ClientReader) (writer : ClientWriter)
    (conn : UpstreamConnection) (ciphers : ConnectionCiphers) (plain answer : Bytes)
    (hreader : Inlet.ClientPending reader (ciphers.cltDec.mask prim.ks plain))
    (hconn : (upstreamFraming conn.faketls).Pending conn.reader (conn.dec.mask prim.ks answer))
    (results : List Bool) (count : Nat) :
    Conveys prim (upstreamFraming conn.faketls) plain results
        (relayUpload reader (relayCiphers ciphers conn) results) count ∧
      Conveys prim (writerFraming writer) answer results
        (relayDownload conn (relayCiphers ciphers conn) results) count :=
  ⟨(relayUpload reader (relayCiphers ciphers conn) results).conveys _ rfl hreader count,
    (relayDownload conn (relayCiphers ciphers conn) results).conveys _ rfl hconn count⟩

/-- Three bytes from a FakeTLS client to a plain upstream proxy. -/
theorem relay_transparent_three_bytes :
    let cipher : AesCtr256 := ⟨⟨List.Vector.replicate 32 1, List.Vector.replicate 16 2⟩, 0⟩
    let other : AesCtr256 := ⟨⟨List.Vector.replicate 32 3, List.Vector.replicate 16 4⟩, 0⟩
    let reader : ClientReader := .fakeTls [wire [appdataRecord
      (cipher.mask samplePrimitives.ks [7, 8, 9]) (by decide)]] {}
    Framing.Carries .raw (Flow.turns samplePrimitives .raw 4
        (relayUpload reader (relayCiphers ⟨cipher, cipher, cipher, cipher⟩
          ⟨[], other, other, false⟩) [])).1.wire
      (other.mask samplePrimitives.ks [7, 8, 9]) := by
  intro cipher other reader
  obtain ⟨hupload, -⟩ := relay_transparent samplePrimitives reader .plain ⟨[], other, other, false⟩
    ⟨cipher, cipher, cipher, cipher⟩ [7, 8, 9] []
    ⟨_, rfl, [appdataRecord (cipher.mask samplePrimitives.ks [7, 8, 9]) (by decide)], [],
      by simp [Source.elements], List.forall_mem_singleton.mpr ⟨.inl ⟨rfl, by decide⟩,
        by decide⟩, by decide, .inl rfl⟩ rfl [] 4
  exact hupload.all (fun _ hmem => (List.not_mem_nil hmem).elim) (by decide)

/-- What arrives of what a loop writes. A connection that breaks and a write that fails
after some bytes leave a beginning; `whole` asks for a loop that came to its end and a
connection that delivered all of it. -/
structure Arrives (prim : Primitives) (whole : Bool) (framing : Framing) (count : Nat)
    (flow : Flow) (source : Source UInt8) : Prop where
  beginning : source.elements <+: (flow.turns prim framing count).1.wire
  all : whole = true → source.elements = (flow.turns prim framing count).1.wire ∧
    (flow.turns prim framing count).2 = false

/-- The reader of a proxy whose client connection carries the source after the handshake. -/
def clientReader : Framing → Source UInt8 → ClientReader
  | .raw, source => .plain source
  | .appdata, source => .fakeTls source {}

theorem clientReader_pending {framing : Framing} {source : Source UInt8} {bytes : Bytes}
    (hpending : framing.Pending source bytes) :
    Inlet.ClientPending (clientReader framing source) bytes := by
  cases framing with
  | raw => exact hpending
  | appdata => exact ⟨bytes, rfl, hpending⟩

/-- The part of a masked text that was sent. -/
theorem exists_sent {prim : Primitives} {cipher : AesCtr256} {plain got : Bytes}
    (hgot : got <+: cipher.mask prim.ks plain) :
    ∃ sent, sent <+: plain ∧ got = cipher.mask prim.ks sent := by
  refine ⟨plain.take got.length, List.take_prefix _ _, ?_⟩
  rw [← Cipher.mask_take]
  exact List.prefix_iff_eq_take.mp hgot

theorem Flow.ideal_of_connect {flow : Flow} (hsink : flow.pump.sink = Sink.connect []) :
    flow.ideal = flow := by
  obtain ⟨inlet, dec, enc, sink⟩ := flow
  obtain rfl : sink = Sink.connect [] := hsink
  rfl

section Hop

variable {prim : Primitives} {whole : Bool} {framing : Framing} {count : Nat} {flow : Flow}
  {source : Source UInt8} {plain : Bytes}

/-- The other side of a hop has the beginning of what went in, under its own keystream. -/
theorem Arrives.received (harrives : Arrives prim whole framing count flow source)
    (hsink : flow.pump.sink = Sink.connect [])
    (hpending : flow.inlet.Pending (flow.pump.dec.mask prim.ks plain)) :
    ∃ sent, sent <+: plain ∧ (whole = true → sent = plain) ∧
      framing.Pending source (flow.pump.enc.mask prim.ks sent) := by
  obtain ⟨reached, hcarries, hall, -⟩ := (Conveyed.connect hsink).turns hpending count
  rw [Flow.ideal_of_connect hsink] at hcarries hall
  obtain ⟨got, hgot, hbeginning, hwhole⟩ := hcarries.received harrives.beginning
  obtain ⟨sent, hsent, rfl⟩ := exists_sent hbeginning
  refine ⟨sent, hsent.trans (List.take_prefix _ _), ?_, hgot⟩
  intro htrue
  obtain ⟨harrived, hended⟩ := harrives.all htrue
  have heq := hwhole harrived
  rw [hall hended, List.take_length] at heq
  have hmask := congrArg (flow.pump.enc.mask prim.ks) heq
  rwa [Cipher.mask_mask, Cipher.mask_mask] at hmask

end Hop

/-! ## Any number of hops -/

/-- From one inlet and the cipher that reads it to another one, over the bridges of
proxies in a row: uploads over the relays, downloads over the bridge that the last proxy
selected and the relays before it. -/
inductive Path (prim : Primitives) (whole : Bool) :
    Inlet → AesCtr256 → Inlet → AesCtr256 → Prop
  | here (inlet : Inlet) (cipher : AesCtr256) : Path prim whole inlet cipher inlet cipher
  | upload {first : Inlet} {cipher : AesCtr256} {reader : ClientReader}
      {ciphers : ConnectionCiphers} {faketls : Bool} {count : Nat} {source : Source UInt8}
      (hpath : Path prim whole first cipher (.client reader) ciphers.cltDec)
      (harrives : Arrives prim whole (upstreamFraming faketls) count
        (relayUpload reader ciphers []) source) :
      Path prim whole first cipher (.client (clientReader (upstreamFraming faketls) source))
        ciphers.tgEnc
  | download {first : Inlet} {cipher : AesCtr256}
      {upstream : Routing.Upstream (List WsEvent) UpstreamConnection} {remote : Source UInt8}
      {ciphers : ConnectionCiphers} {writer : ClientWriter} {count : Nat} {source : Source UInt8}
      (hpath : Path prim whole first cipher (selectedDownload upstream remote ciphers []).inlet
        (selectedDownload upstream remote ciphers []).pump.dec)
      (harrives : Arrives prim whole (writerFraming writer) count
        (selectedDownload upstream remote ciphers []) source) :
      Path prim whole first cipher (.upstream (writerFraming writer) source) ciphers.cltEnc

theorem selectedDownload_sink (upstream : Routing.Upstream (List WsEvent) UpstreamConnection)
    (remote : Source UInt8) (ciphers : ConnectionCiphers) (results : List Bool) :
    (selectedDownload upstream remote ciphers results).pump.sink = Sink.connect results ∧
      (selectedDownload upstream remote ciphers results).pump.enc = ciphers.cltEnc := by
  cases upstream <;> exact ⟨rfl, rfl⟩

theorem Path.received {prim : Primitives} {whole : Bool} {first last : Inlet}
    {cipher final : AesCtr256} (hpath : Path prim whole first cipher last final) {plain : Bytes}
    (hpending : first.Pending (cipher.mask prim.ks plain)) :
    ∃ sent, sent <+: plain ∧ (whole = true → sent = plain) ∧
      last.Pending (final.mask prim.ks sent) := by
  induction hpath with
  | here => exact ⟨plain, List.prefix_rfl, fun _ => rfl, hpending⟩
  | @upload reader ciphers faketls count source _ harrives ih =>
      obtain ⟨middle, hmiddle, hall, hreader⟩ := ih
      obtain ⟨sent, hsent, hwhole, hsource⟩ := harrives.received rfl hreader
      exact ⟨sent, hsent.trans hmiddle, fun htrue => (hwhole htrue).trans (hall htrue),
        clientReader_pending hsource⟩
  | @download upstream remote ciphers writer count source _ harrives ih =>
      obtain ⟨hsink, henc⟩ := selectedDownload_sink upstream remote ciphers []
      obtain ⟨middle, hmiddle, hall, hreader⟩ := ih
      obtain ⟨sent, hsent, hwhole, hsource⟩ := harrives.received hsink hreader
      rw [henc] at hsource
      exact ⟨sent, hsent.trans hmiddle, fun htrue => (hwhole htrue).trans (hall htrue), hsource⟩

/-! ## The two ends -/

/-- The reads of a bridge whose connection breaks after some of them. -/
def clientReads : Nat → ClientReader → List ReadResult
  | 0, _ => [.err]
  | count + 1, reader =>
      let (bytes, reader) := reader.read clientReadBufSize
      .ok bytes :: clientReads count reader

theorem streamOf_clientReads {reader : ClientReader} {bytes : Bytes} (count : Nat)
    (hpending : Inlet.ClientPending reader bytes) :
    ∃ got, streamOf (clientReads count reader) = some got ∧ got <+: bytes ∧
      (bytes.length ≤ count → got = bytes) := by
  induction count generalizing reader bytes with
  | zero =>
      refine ⟨[], rfl, List.nil_prefix, ?_⟩
      intro hlength
      exact (List.length_eq_zero_iff.mp (Nat.le_zero.mp hlength)).symm
  | succ count ih =>
      obtain ⟨rest, hsplit, hrest, hempty⟩ := Inlet.clientReader_read_delivers hpending
      obtain ⟨got, hgot, hbeginning, hall⟩ := ih hrest
      simp only [clientReads, streamOf]
      split
      next hnil =>
        rw [hempty hnil]
        exact ⟨[], rfl, List.prefix_rfl, fun _ => rfl⟩
      next hchunk =>
        refine ⟨_, by rw [hgot, Option.map_some], ?_, ?_⟩
        · rw [hsplit]
          exact (List.prefix_append_right_inj _).mpr hbeginning
        · intro hlength
          have hpos := List.length_pos_of_ne_nil hchunk
          have hsum := congrArg List.length hsplit
          rw [List.length_append] at hsum
          rw [hall (by omega), ← hsplit]

/-- A client that is served through any number of proxies and the Telegram server behind
the last one see the beginning of each other's plaintext, whatever each proxy reads at
once, however the connections cut, delay and lose what they carry and whichever framing
each of them uses. When the loops come to their ends and nothing is lost, they see all
of it. -/
theorem relay_chain_transparent (prim : Primitives) (width : PointerWidth) (whole : Bool)
    (init last relayInit : Block 64) (secret lastSecret : Bytes) (proto : ProtoTag) :
    let ciphers := buildConnectionCiphers prim (prekeyAndIv last) lastSecret relayInit
    (∀ plain reader lastReader,
      Inlet.ClientPending reader ((clientSend prim init secret).mask prim.ks plain) →
      Path prim whole (.client reader) (clientSend prim init secret) (.client lastReader)
        ciphers.cltDec →
      ∀ (count : Nat) (results : List Bool), ∃ sent, sent <+: plain ∧
        (whole = true → plain.length ≤ count → sent = plain) ∧
        (∀ framing, ∃ sink, bridgeWsUpload prim width framing relayInit ciphers proto
            (clientReads count lastReader) results = .ok sink ∧
          Carried prim (peerReceive relayInit) [relayInit.toList] sent results sink) ∧
        Carried prim (peerReceive relayInit) [relayInit.toList] sent results
          (bridgeTcpUpload prim relayInit ciphers (clientReads count lastReader) results)) ∧
    (∀ answer inlet framing source,
      inlet.Pending ((peerSend relayInit).mask prim.ks answer) →
      Path prim whole inlet (peerSend relayInit) (.upstream framing source)
        (clientReceive prim init secret) →
      ∀ sizes, (∀ size ∈ sizes, framing.Fits size) → ∃ got, got <+: answer ∧
        (reads framing.read sizes source).1.flatten =
          (clientReceive prim init secret).mask prim.ks got ∧
        (whole = true → answer.length ≤ sizes.length → got = answer)) := by
  intro ciphers
  have htgEnc : ciphers.tgEnc = peerReceive relayInit := congrArg ConnectionCiphers.tgEnc
    (Bridge.buildConnectionCiphers_eq prim last relayInit lastSecret)
  refine ⟨?_, ?_⟩
  · intro plain reader lastReader hpending hpath count results
    obtain ⟨passed, hpassed, hwhole, hlast⟩ := hpath.received hpending
    obtain ⟨got, hgot, hbeginning, hall⟩ := streamOf_clientReads count hlast
    obtain ⟨sent, hsent, rfl⟩ := exists_sent hbeginning
    refine ⟨sent, hsent.trans hpassed, ?_, ?_, ?_⟩
    · intro htrue hcount
      have heq := hall (by rw [Cipher.mask_length, hwhole htrue]; exact hcount)
      have hmask := congrArg (ciphers.cltDec.mask prim.ks) heq
      rw [Cipher.mask_mask, Cipher.mask_mask] at hmask
      exact hmask.trans (hwhole htrue)
    · intro framing
      rw [← htgEnc]
      exact Bridge.bridgeWsUpload_carried width framing relayInit ciphers _ results hgot
    · rw [← htgEnc]
      exact Bridge.bridgeTcpUpload_carried relayInit ciphers _ results hgot
  · intro answer inlet framing source hpending hpath sizes hsizes
    obtain ⟨passed, hpassed, hwhole, hlast⟩ := hpath.received hpending
    obtain ⟨hbeginning, hall⟩ := framing.read_delivers.reads hlast (allFit_of_forall _ hsizes)
    obtain ⟨got, hgot, heq⟩ := exists_sent hbeginning
    refine ⟨got, hgot.trans hpassed, heq, ?_⟩
    intro htrue hlength
    have hfull := hall (.inr (by rw [Cipher.mask_length, hwhole htrue]; exact hlength))
    rw [heq] at hfull
    have hmask := congrArg ((clientReceive prim init secret).mask prim.ks) hfull
    rw [Cipher.mask_mask, Cipher.mask_mask] at hmask
    exact hmask.trans (hwhole htrue)

/-- What a loop writes arrives. -/
theorem Flow.exists_arrives {prim : Primitives} (framing : Framing) (flow : Flow) {plain : Bytes}
    (hsink : flow.pump.sink = Sink.connect [])
    (hpending : flow.inlet.Pending (flow.pump.dec.mask prim.ks plain)) {count : Nat}
    (hcount : plain.length + flow.inlet.messages < count) :
    ∃ source, Arrives prim true framing count flow source := by
  obtain ⟨-, -, -, hends⟩ := (Conveyed.connect hsink).turns hpending count
  rw [Flow.ideal_of_connect hsink] at hends
  have hended := hends (by omega)
  have hall : Source.elements [(flow.turns prim framing count).1.wire] =
      (flow.turns prim framing count).1.wire := List.flatten_singleton
  refine ⟨[(flow.turns prim framing count).1.wire], ?_, fun _ => ⟨hall, hended⟩⟩
  rw [hall]

/-- Two proxies in a row, with FakeTLS between them. -/
theorem relay_chain_transparent_two :
    let init : Block 64 := ⟨List.replicate 64 0x21, by simp⟩
    let last : Block 64 := ⟨List.replicate 64 0x27, by simp⟩
    let relayInit : Block 64 := ⟨List.replicate 64 0x35, by simp⟩
    let ciphers := buildConnectionCiphers samplePrimitives (prekeyAndIv last) [5] relayInit
    let cipher := clientSend samplePrimitives init [1, 2]
    let reader : ClientReader := .plain [cipher.mask samplePrimitives.ks [1, 10, 11, 12, 13]]
    ∃ lastReader, Path samplePrimitives true (.client reader) cipher (.client lastReader)
        ciphers.cltDec ∧
      ∃ sink, bridgeWsUpload samplePrimitives .bits64 .packets relayInit ciphers .abridged
          (clientReads 8 lastReader) [] = .ok sink ∧
        Bridge.Delivered samplePrimitives (peerReceive relayInit) [relayInit.toList]
          [1, 10, 11, 12, 13] sink := by
  intro init last relayInit ciphers cipher reader
  let first : ConnectionCiphers := ⟨cipher, cipher, ciphers.cltDec, ciphers.cltEnc⟩
  have hreader : Inlet.ClientPending reader
      (cipher.mask samplePrimitives.ks [1, 10, 11, 12, 13]) := List.flatten_singleton
  obtain ⟨source, harrives⟩ := (relayUpload reader first []).exists_arrives (upstreamFraming true)
    rfl hreader (Nat.lt_add_one _)
  have hpath := Path.upload (Path.here (.client reader) cipher) harrives
  obtain ⟨hupload, -⟩ := relay_chain_transparent samplePrimitives .bits64 true init last relayInit
    [1, 2] [5] .abridged
  obtain ⟨sent, -, hall, hws, -⟩ := hupload _ reader _ hreader hpath 8 []
  obtain rfl := hall rfl (by decide)
  obtain ⟨sink, hsink, hcarried⟩ := hws .packets
  exact ⟨_, hpath, sink, hsink, hcarried.all fun _ hmem => (List.not_mem_nil hmem).elim⟩

end TgWsProxy.Relay
