import TgWsProxy.Bridge.Transparency
import TgWsProxy.Relay.Framing

/-!
# One direction of a bridge, from framing to framing

A direction reads until it gets nothing, exchanges one keystream for another and writes
in the framing of the other side. Its reads may be cut anywhere, and its writes may fail
anywhere; what the other side can see of it is always the beginning of what the
direction would have written without a failure.
-/

namespace TgWsProxy.Relay

open Foundation.Keystream Foundation.Stream TgWsProxy.Crypto TgWsProxy.FakeTls TgWsProxy.Client
open Bridge (Pump Sink WsEvent mask_extract_mask)
open Splitter (extract_of_drop_eq take_append_extract extract_length)

def clientReadBufSize : Nat := tlsMaxRecordPayload + tlsReadHeadroom

def relayBufSize : Nat := 16 * 1024

/-! ## Where a direction reads from -/

/-- The client, the upstream proxy or the Telegram server of `bridge_tcp`, or the source
half of a WebSocket connection. -/
inductive Inlet
  | client (reader : ClientReader)
  | upstream (framing : Framing) (source : Source UInt8)
  | ws (events : List WsEvent)

/-- The next data message; a ping or a pong is passed over. -/
def nextData : List WsEvent → Option Bytes × List WsEvent
  | [] => (none, [])
  | .ended :: rest => (none, rest)
  | .ping _ :: rest | .pong _ :: rest => nextData rest
  | .binary data :: rest | .text data :: rest => (some data, rest)

/-- A read of no bytes ends the loop. -/
def filled (bytes : Bytes) : Option Bytes := if bytes = [] then none else some bytes

namespace Inlet

/-- What the loop goes on with; for records its buffer must fit a whole one. -/
def next : Inlet → Option Bytes × Inlet
  | .client reader =>
      let (bytes, reader) := reader.read clientReadBufSize
      (filled bytes, .client reader)
  | .upstream framing source =>
      let bufLen := if framing = .appdata then tlsMaxRecordPayload + tlsReadHeadroom
        else relayBufSize
      let (bytes, source) := framing.read bufLen source
      (filled bytes, .upstream framing source)
  | .ws events =>
      let (data, events) := nextData events
      (data, .ws events)

end Inlet

/-! ## What the loops do -/

/-- Decrypt from one side, encrypt for the other, write in its framing. -/
def convey (prim : Primitives) (framing : Framing) (pump : Pump) (chunk : Bytes) : Pump × Bool :=
  let (plaintext, dec) := pump.dec.applyKeystream prim.ks chunk
  let (ciphertext, enc) := pump.enc.applyKeystream prim.ks plaintext
  let (sink, sent) := framing.write pump.sink ciphertext
  ({ dec, enc, sink }, sent)

structure Flow where
  inlet : Inlet
  pump : Pump

namespace Flow

/-- One turn of the loop, and whether there is another one. -/
def turn (prim : Primitives) (framing : Framing) (flow : Flow) : Flow × Bool :=
  match flow.inlet.next with
  | (none, inlet) => ({ flow with inlet }, false)
  | (some chunk, inlet) =>
      let (pump, sent) := convey prim framing flow.pump chunk
      ({ inlet, pump }, sent)

def turns (prim : Primitives) (framing : Framing) : Nat → Flow → Flow × Bool
  | 0, flow => (flow, true)
  | count + 1, flow =>
      match flow.turn prim framing with
      | (flow, true) => turns prim framing count flow
      | (flow, false) => (flow, false)

end Flow

/-! ## Reading -/

namespace Inlet

/-- What a client reader has still to return, when its stream may break off. -/
def ClientPending : ClientReader → Bytes → Prop
  | .plain reader, bytes => reader.elements = bytes
  | .fakeTls reader pending, bytes =>
      ∃ later, bytes = pending.remaining ++ later ∧ Truncated maxInboundPayload reader later

/-- The data of the messages before the end. -/
def dataOf : List WsEvent → Bytes
  | [] => []
  | .ended :: _ => []
  | .ping _ :: rest | .pong _ :: rest => dataOf rest
  | .binary data :: rest | .text data :: rest => data ++ dataOf rest

def Pending : Inlet → Bytes → Prop
  | .client reader, bytes => ClientPending reader bytes
  | .upstream framing source, bytes => framing.Pending source bytes
  | .ws events, bytes => dataOf events = bytes

/-- How many turns of the loop may carry no bytes. -/
def messages : Inlet → Nat
  | .client _ | .upstream _ _ => 0
  | .ws events => events.length

theorem clientReader_read_delivers {reader : ClientReader} {content : Bytes}
    (hpending : ClientPending reader content) :
    ∃ rest, content = (reader.read clientReadBufSize).1 ++ rest ∧
      ClientPending (reader.read clientReadBufSize).2 rest ∧
      ((reader.read clientReadBufSize).1 = [] → content = []) := by
  have hpos : 0 < clientReadBufSize := by decide
  cases reader with
  | plain reader =>
      obtain rfl := hpending
      obtain ⟨hsplit, hempty⟩ := @Source.elements_of_read _ clientReadBufSize reader hpos
      exact ⟨_, hsplit, rfl, hempty⟩
  | fakeTls reader pending =>
      obtain ⟨later, rfl, hlater⟩ := hpending
      by_cases hremaining : pending.remaining = []
      · obtain ⟨rest, hsplit, hrest, hempty⟩ :=
          readTlsAppdata_delivers_truncated maxInboundPayload reader clientReadBufSize later hlater
            (Nat.le_refl _)
        simp only [ClientReader.read, PendingData.read_of_remaining_eq_nil _ hremaining]
        rw [hremaining, List.nil_append]
        exact ⟨rest, hsplit, ⟨rest, by rw [hremaining, List.nil_append], hrest⟩, hempty⟩
      · obtain ⟨hpending, hafter⟩ :=
          PendingData.read_of_remaining_ne_nil clientReadBufSize hremaining
        have hread : ClientReader.read clientReadBufSize (.fakeTls reader pending) =
            (pending.remaining.take clientReadBufSize,
              .fakeTls reader (pending.read clientReadBufSize).2) := by
          rw [ClientReader.read, ← Prod.eta (pending.read clientReadBufSize), hpending]
        rw [hread]
        refine ⟨(pending.read clientReadBufSize).2.remaining ++ later, ?_, ⟨later, rfl, hlater⟩, ?_⟩
        · rw [hafter, ← List.append_assoc, List.take_append_drop]
        · intro hempty
          rcases List.take_eq_nil_iff.mp hempty with hzero | hnil
          · exact absurd hzero (Nat.ne_of_gt hpos)
          · exact absurd hnil hremaining

/-- What the loop gets from one read or message. -/
inductive Next (content : Bytes) (messages : Nat) : Option Bytes × Inlet → Prop
  | ended {inlet : Inlet} (hempty : content = []) : Next content messages (none, inlet)
  | chunk {chunk rest : Bytes} {inlet : Inlet} (hsplit : content = chunk ++ rest)
      (hrest : inlet.Pending rest) (hless : inlet.messages < messages + chunk.length) :
      Next content messages (some chunk, inlet)

theorem next_of_read {content bytes rest : Bytes} (inlet : Inlet) (hsplit : content = bytes ++ rest)
    (hrest : inlet.Pending rest) (hempty : bytes = [] → content = [])
    (hmessages : inlet.messages = 0) : Next content 0 (filled bytes, inlet) := by
  unfold filled
  split
  next hnil => exact .ended (hempty hnil)
  next hbytes =>
    refine .chunk hsplit hrest ?_
    rw [hmessages, Nat.zero_add]
    exact List.length_pos_of_ne_nil hbytes

theorem next_of_events (events : List WsEvent) :
    Next (dataOf events) events.length ((nextData events).1, .ws (nextData events).2) := by
  induction events with
  | nil => exact .ended rfl
  | cons event rest ih =>
      cases event with
      | ended => exact .ended rfl
      | binary data | text data =>
          refine .chunk rfl rfl ?_
          change rest.length < rest.length + 1 + data.length
          omega
      | ping data | pong data =>
          change Next (dataOf rest) (rest.length + 1) ((nextData rest).1, .ws (nextData rest).2)
          cases hnext : nextData rest with
          | mk data later =>
              rw [hnext] at ih
              cases ih with
              | ended hempty => exact .ended hempty
              | chunk hsplit hrest hless =>
                  refine .chunk hsplit hrest (hless.trans_le ?_)
                  omega

theorem next_delivers {inlet : Inlet} {content : Bytes} (hpending : inlet.Pending content) :
    Next content inlet.messages inlet.next := by
  cases inlet with
  | client reader =>
      obtain ⟨rest, hsplit, hrest, hempty⟩ := clientReader_read_delivers hpending
      exact next_of_read (.client (reader.read clientReadBufSize).2) hsplit hrest hempty rfl
  | upstream framing source =>
      have hfits : framing.Fits (if framing = .appdata then tlsMaxRecordPayload + tlsReadHeadroom
          else relayBufSize) := by
        cases framing with
        | raw => exact (by decide : 0 < relayBufSize)
        | appdata => exact Nat.le_refl _
      obtain ⟨rest, hsplit, hrest, hempty⟩ :=
        framing.read_delivers source _ content hpending hfits
      exact next_of_read (.upstream framing (framing.read _ source).2) hsplit hrest hempty
        rfl
  | ws events =>
      obtain rfl : dataOf events = content := hpending
      exact next_of_events events

end Inlet

/-! ## Writes that do not fail -/

/-- The sink as it would go on if no write failed. -/
def idealSink (sink : Sink) : Sink := ⟨sink.accepted, [], false⟩

def idealPump (pump : Pump) : Pump := { pump with sink := idealSink pump.sink }

namespace Flow

def ideal (flow : Flow) : Flow := { flow with pump := idealPump flow.pump }

/-- Everything the other side was sent. -/
def wire (flow : Flow) : Bytes := flow.pump.sink.accepted.flatten

end Flow

theorem sendParts_ideal (accepted parts : List Bytes) :
    Sink.sendParts ⟨accepted, [], false⟩ parts = (⟨accepted ++ parts, [], false⟩, true) := by
  induction parts generalizing accepted with
  | nil => rw [List.append_nil]; rfl
  | cons part parts ih =>
      rw [Sink.sendParts]
      simp only [Sink.send, ih, List.append_assoc, List.singleton_append]

theorem Framing.write_ideal (framing : Framing) (sink : Sink) (data : Bytes) :
    framing.write (idealSink sink) data =
      (⟨sink.accepted ++ framing.frames data, [], false⟩, true) := by
  cases framing with
  | raw => rfl
  | appdata => exact sendParts_ideal sink.accepted (appdataWrites data)

section Convey

variable (prim : Primitives) (framing : Framing) (pump : Pump) (chunk : Bytes)

/-- The bytes that a chunk turns into. -/
def remasked : Bytes := pump.enc.mask prim.ks (pump.dec.mask prim.ks chunk)

theorem convey_eq :
    convey prim framing pump chunk =
      ({ dec := pump.dec.advance chunk.length, enc := pump.enc.advance chunk.length,
         sink := (framing.write pump.sink (remasked prim pump chunk)).1 },
        (framing.write pump.sink (remasked prim pump chunk)).2) := by
  simp [convey, remasked, Cipher.applyKeystream]

theorem convey_ideal :
    convey prim framing (idealPump pump) chunk =
      ({ dec := pump.dec.advance chunk.length, enc := pump.enc.advance chunk.length,
         sink := ⟨pump.sink.accepted ++ framing.frames (remasked prim pump chunk), [], false⟩ },
        true) := by
  rw [convey_eq]
  simp only [idealPump, remasked, Framing.write_ideal]

/-- A turn that succeeds does what it would have done without failures; one that fails
has written the beginning of that. -/
theorem convey_cases :
    ((convey prim framing pump chunk).2 = true ∧
        (convey prim framing (idealPump pump) chunk).1 =
          idealPump (convey prim framing pump chunk).1 ∧
        (pump.sink.Reliable → (convey prim framing pump chunk).1.sink.Reliable)) ∨
      ((convey prim framing pump chunk).2 = false ∧ ¬ pump.sink.Reliable ∧
        (convey prim framing pump chunk).1.sink.accepted.flatten <+:
          (convey prim framing (idealPump pump) chunk).1.sink.accepted.flatten) := by
  rw [convey_ideal, convey_eq]
  rcases framing.write_cases pump.sink (remasked prim pump chunk) with
    ⟨hsent, haccepted, hreliable⟩ | ⟨hfailed, hbad, haccepted⟩
  · refine .inl ⟨hsent, ?_, hreliable⟩
    simp only [idealPump, idealSink, haccepted]
  · exact .inr ⟨hfailed, hbad, haccepted⟩

end Convey

namespace Flow

variable (prim : Primitives) (framing : Framing)

theorem turn_of_none (flow : Flow) {inlet : Inlet} (hnext : flow.inlet.next = (none, inlet)) :
    flow.turn prim framing = ({ flow with inlet }, false) := by
  simp only [turn, hnext]

theorem turn_of_some (flow : Flow) {chunk : Bytes} {inlet : Inlet}
    (hnext : flow.inlet.next = (some chunk, inlet)) :
    flow.turn prim framing =
      (⟨inlet, (convey prim framing flow.pump chunk).1⟩,
        (convey prim framing flow.pump chunk).2) := by
  simp only [turn, hnext]

/-- One turn, compared with the turn without failures. -/
theorem turn_ideal (flow : Flow) :
    (flow.ideal.turn prim framing = ((flow.turn prim framing).1.ideal, (flow.turn prim framing).2) ∧
        (flow.pump.sink.Reliable → (flow.turn prim framing).1.pump.sink.Reliable)) ∨
      ((flow.turn prim framing).2 = false ∧ ¬ flow.pump.sink.Reliable ∧
        (flow.turn prim framing).1.wire <+: (flow.ideal.turn prim framing).1.wire) := by
  cases hnext : flow.inlet.next with
  | mk data inlet =>
      cases data with
      | none =>
          rw [turn_of_none prim framing flow hnext, turn_of_none prim framing flow.ideal hnext]
          exact .inl ⟨rfl, id⟩
      | some chunk =>
          rw [turn_of_some prim framing flow hnext, turn_of_some prim framing flow.ideal hnext]
          rcases convey_cases prim framing flow.pump chunk with
            ⟨hsent, hideal, hreliable⟩ | ⟨hfailed, hbad, haccepted⟩
          · refine .inl ⟨?_, hreliable⟩
            refine Prod.ext ?_ ?_
            · simp only [ideal, hideal]
            · exact (congrArg Prod.snd (convey_ideal prim framing flow.pump _)).trans hsent.symm
          · exact .inr ⟨hfailed, hbad, haccepted⟩

/-- Without failures nothing that was written is taken back. -/
theorem wire_turn (flow : Flow) :
    flow.wire <+: (flow.ideal.turn prim framing).1.wire ∧
      (flow.ideal.turn prim framing).1.ideal = (flow.ideal.turn prim framing).1 := by
  cases hnext : flow.inlet.next with
  | mk data inlet =>
      cases data with
      | none =>
          rw [turn_of_none prim framing flow.ideal hnext]
          exact ⟨List.prefix_rfl, rfl⟩
      | some chunk =>
          rw [turn_of_some prim framing flow.ideal hnext]
          simp only [ideal, wire, convey_ideal, List.flatten_append]
          exact ⟨List.prefix_append _ _, rfl⟩

theorem wire_turns (flow : Flow) (count : Nat) :
    flow.wire <+: (turns prim framing count flow.ideal).1.wire := by
  induction count generalizing flow with
  | zero => exact List.prefix_rfl
  | succ count ih =>
      obtain ⟨hfirst, hideal⟩ := wire_turn prim framing flow
      have hlater := ih (flow.ideal.turn prim framing).1
      rw [hideal] at hlater
      rw [turns]
      cases hnext : flow.ideal.turn prim framing with
      | mk next more =>
          rw [hnext] at hfirst hlater
          cases more with
          | true => exact hfirst.trans hlater
          | false => exact hfirst

/-- Whatever the writes do, the other side gets the beginning of what the loop would
have written without failures, and all of it when none fails. -/
theorem turns_ideal (flow : Flow) (count : Nat) :
    (turns prim framing count flow).1.wire <+: (turns prim framing count flow.ideal).1.wire ∧
      (flow.pump.sink.Reliable →
        (turns prim framing count flow).1.wire =
          (turns prim framing count flow.ideal).1.wire) := by
  induction count generalizing flow with
  | zero => exact ⟨List.prefix_rfl, fun _ => rfl⟩
  | succ count ih =>
      rw [turns, turns]
      rcases turn_ideal prim framing flow with
        ⟨hideal, hreliable⟩ | ⟨hfailed, hbad, hwire⟩
      · rw [hideal]
        cases hnext : flow.turn prim framing with
        | mk next more =>
            rw [hnext] at hreliable
            cases more with
            | true => exact ⟨(ih next).1, fun h => (ih next).2 (hreliable h)⟩
            | false => exact ⟨List.prefix_rfl, fun _ => rfl⟩
      · refine ⟨?_, fun h => absurd h hbad⟩
        obtain ⟨-, hideal⟩ := wire_turn prim framing flow
        have hlater := wire_turns prim framing (flow.ideal.turn prim framing).1 count
        rw [hideal] at hlater
        cases hnext : flow.turn prim framing with
        | mk next more =>
            rw [hnext] at hfailed hwire
            cases hfailed
            refine hwire.trans ?_
            cases hturn : flow.ideal.turn prim framing with
            | mk other more =>
                rw [hturn] at hlater
                cases more with
                | true => exact hlater
                | false => exact List.prefix_rfl

end Flow

/-! ## What a direction carries -/

section Carry

variable (prim : Primitives) (framing : Framing) (source dest : AesCtr256) (plain : Bytes)

/-- Both ciphers of a pump stand at `pos`, and so does what it has written. -/
structure Conveyed (pos : Nat) (pump : Pump) : Prop where
  pos_le : pos ≤ plain.length
  dec : pump.dec = source.advance pos
  enc : pump.enc = dest.advance pos
  carries : framing.Carries pump.sink.accepted.flatten (dest.mask prim.ks (plain.take pos))

variable {prim framing source dest plain}

theorem Conveyed.connect {pump : Pump} {results : List Bool}
    (hsink : pump.sink = Sink.connect results) :
    Conveyed prim framing pump.dec pump.enc plain 0 pump where
  pos_le := Nat.zero_le _
  dec := rfl
  enc := rfl
  carries := by
    rw [hsink]
    exact framing.carries_nil

/-- One chunk moves both ciphers and the wire by its length. -/
theorem Conveyed.convey {pos : Nat} {pump : Pump}
    (hconveyed : Conveyed prim framing source dest plain pos pump) {chunk rest : Bytes}
    (hsplit : (source.mask prim.ks plain).drop pos = chunk ++ rest) :
    Conveyed prim framing source dest plain (pos + chunk.length)
        (convey prim framing (idealPump pump) chunk).1 ∧
      (source.mask prim.ks plain).drop (pos + chunk.length) = rest := by
  obtain ⟨hwithin, hpiece, hrest⟩ := extract_of_drop_eq (by simpa using hconveyed.pos_le) hsplit
  rw [Cipher.mask_length] at hwithin
  have hplain := mask_extract_mask hpiece
  refine ⟨?_, hrest⟩
  rw [convey_ideal]
  refine ⟨hwithin, ?_, ?_, ?_⟩
  · rw [hconveyed.dec, Cipher.advance_advance]
  · rw [hconveyed.enc, Cipher.advance_advance]
  · have happend := hconveyed.carries.append (remasked prim pump chunk)
    rw [remasked, hconveyed.dec, hplain, hconveyed.enc] at happend
    rw [List.flatten_append, remasked, hconveyed.dec, hplain, hconveyed.enc]
    have hjoin := take_append_extract plain (Nat.le_add_right pos chunk.length)
    rw [← hjoin, Cipher.mask_append, List.length_take_of_le hconveyed.pos_le]
    exact happend

/-- Without failures, a loop that has run for some turns has written whole frames of
what it has read, and everything once it has ended. -/
theorem Conveyed.turns {pos : Nat} {flow : Flow}
    (hconveyed : Conveyed prim framing source dest plain pos flow.pump)
    (hpending : flow.inlet.Pending ((source.mask prim.ks plain).drop pos)) (count : Nat) :
    ∃ reached, framing.Carries (Flow.turns prim framing count flow.ideal).1.wire
        (dest.mask prim.ks (plain.take reached)) ∧
      ((Flow.turns prim framing count flow.ideal).2 = false → reached = plain.length) ∧
      (plain.length + flow.inlet.messages < pos + count →
        (Flow.turns prim framing count flow.ideal).2 = false) := by
  induction count generalizing pos flow with
  | zero =>
      have hpos := hconveyed.pos_le
      exact ⟨pos, hconveyed.carries, nofun, fun hlt => by omega⟩
  | succ count ih =>
      rw [Flow.turns]
      have hread := Inlet.next_delivers hpending
      cases hnext : flow.inlet.next with
      | mk data inlet =>
          rw [hnext] at hread
          cases hread with
          | ended hempty =>
              rw [Flow.turn_of_none prim framing flow.ideal hnext]
              have hend := congrArg List.length hempty
              simp only [List.length_drop, Cipher.mask_length, List.length_nil] at hend
              exact ⟨pos, hconveyed.carries,
                fun _ => Nat.le_antisymm hconveyed.pos_le (by omega), fun _ => rfl⟩
          | @chunk bytes _ _ hsplit hrest hless =>
              obtain ⟨hmoved, hdrop⟩ := hconveyed.convey hsplit
              obtain ⟨reached, hcarries, hall, hends⟩ :=
                @ih _ ⟨inlet, (Relay.convey prim framing (idealPump flow.pump) bytes).1⟩ hmoved
                  (by rw [hdrop]; exact hrest)
              rw [Flow.turn_of_some prim framing flow.ideal hnext]
              simp only [Flow.ideal, convey_ideal] at hcarries hall hends ⊢
              exact ⟨reached, hcarries, hall, fun hlt => hends (by omega)⟩

end Carry

end TgWsProxy.Relay
