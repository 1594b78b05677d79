import TgWsProxy.Foundation.Transition
import TgWsProxy.Splitter.Flushing
import TgWsProxy.Splitter.Turns

/-!
# The loop of the splitter advances

While no packet length is known, the packet under assembly is the part of a header
that is in the buffer, and the header is not complete; once a length is known, the
packet is shorter than that. So each turn of the loop finds a byte to take, and its
subtractions stay above zero. The invariant says nothing about what the bytes are:
it holds whatever the calls are given, also with a new cipher in each of them.
-/

namespace TgWsProxy.Splitter

open Foundation.Keystream Foundation.Machine Foundation.Transition TgWsProxy.Crypto

/-! ## The invariant -/

namespace MsgSplitter

/-- The splitter waits for more bytes of a header or of a packet. -/
structure Waiting (splitter : MsgSplitter) : Prop where
  header_lt : splitter.packetLen = none → splitter.headerLen < splitter.requiredHeaderLen
  packet_eq : splitter.packetLen = none → splitter.packet.length = splitter.headerLen
  packet_lt : ∀ packetLen, splitter.packetLen = some packetLen →
    splitter.packet.length < packetLen

/-- The header bytes that were read so far. -/
def held (splitter : MsgSplitter) : Bytes := splitter.header.toList.take splitter.headerLen

variable {splitter : MsgSplitter}

theorem requiredHeaderLen_pos (splitter : MsgSplitter) : 0 < splitter.requiredHeaderLen := by
  unfold requiredHeaderLen
  split
  · split <;> decide
  · decide
  · decide

theorem requiredHeaderLen_le (splitter : MsgSplitter) : splitter.requiredHeaderLen ≤ 4 := by
  unfold requiredHeaderLen
  split
  · split <;> decide
  · decide
  · decide

theorem headerHolds_held (splitter : MsgSplitter) (hheader : splitter.headerLen ≤ 4) :
    splitter.HeaderHolds splitter.held := by
  have hlength : splitter.held.length = splitter.headerLen := by
    rw [held, List.length_take, List.Vector.toList_length]
    omega
  refine ⟨hlength.symm, ?_⟩
  rw [hlength]
  rfl

/-- With nothing under assembly, the splitter waits for a header. -/
theorem Waiting.of_empty (hheader : splitter.headerLen = 0) (hpacket : splitter.packet = [])
    (hunknown : splitter.packetLen = none) : splitter.Waiting := by
  refine ⟨fun _ => ?_, fun _ => ?_, fun packetLen hknown => ?_⟩
  · rw [hheader]
    exact splitter.requiredHeaderLen_pos
  · rw [hheader, hpacket]
    rfl
  · cases hunknown.symm.trans hknown

/-- A header of which the buffer holds too little. -/
theorem Waiting.of_headerless {bytes : Bytes} (hholds : splitter.HeaderHolds bytes)
    (hframe : frameAt splitter.proto bytes = none)
    (hpacket : splitter.packet.length = splitter.headerLen)
    (hunknown : splitter.packetLen = none) : splitter.Waiting := by
  refine ⟨fun _ => ?_, fun _ => hpacket, fun packetLen hknown => ?_⟩
  · rw [hholds.length, requiredHeaderLen_eq hholds]
    exact (frameAt_eq_none_iff _ _).mp hframe
  · cases hunknown.symm.trans hknown

theorem waiting_new (proto : ProtoTag) : (new proto).Waiting := .of_empty rfl rfl rfl

theorem Waiting.flush (hwaiting : splitter.Waiting) : splitter.flush.2.Waiting := by
  unfold MsgSplitter.flush
  split
  next => exact hwaiting
  next => exact .of_empty rfl rfl rfl

end MsgSplitter

/-! ## One turn -/

def Outcome.turn : Outcome → Turn
  | .again turn | .finished turn => turn

/-- The turn took at least one byte off the front of the rest, and the splitter waits
for more. -/
structure Advances (turn : Turn) (outcome : Outcome) : Prop where
  waiting : outcome.turn.splitter.Waiting
  suffix : outcome.turn.rest <:+ turn.rest
  shorter : outcome.turn.rest.length < turn.rest.length

section Turn

variable {prim : Primitives} (width : PointerWidth) {turn : Turn}

theorem length_packet_encrypt {count : Nat} (hcount : count ≤ turn.rest.length) :
    (turn.encrypt prim count).splitter.packet.length =
      turn.splitter.packet.length + count := by
  simp [Turn.encrypt, hcount]

/-- A packet that is not full takes what it can get of the rest. -/
theorem fill_waiting {packetLen : Nat} (hknown : turn.splitter.packetLen = some packetLen)
    (hlt : turn.splitter.packet.length < packetLen) :
    (turn.fill prim packetLen).splitter.Waiting ∧
      (turn.fill prim packetLen).rest <:+ turn.rest ∧
      (turn.rest ≠ [] → (turn.fill prim packetLen).rest.length < turn.rest.length) := by
  generalize hcount : min (packetLen - turn.splitter.packet.length) turn.rest.length = count
  have hlength : (turn.encrypt prim count).splitter.packet.length =
      turn.splitter.packet.length + count := length_packet_encrypt (by omega)
  have hrest : (turn.fill prim packetLen).rest = turn.rest.drop count := by
    simp only [Turn.fill, hcount]
    split <;> rfl
  refine ⟨?_, ?_, ?_⟩
  · simp only [Turn.fill, hcount]
    split
    next => exact .of_empty rfl rfl rfl
    next hshort =>
      refine ⟨fun hunknown => ?_, fun hunknown => ?_, ?_⟩
      · cases hunknown.symm.trans hknown
      · cases hunknown.symm.trans hknown
      · intro other hother
        cases hother.symm.trans hknown
        omega
  · rw [hrest]
    exact List.drop_suffix _ _
  · intro hsome
    have hpos := List.length_pos_of_ne_nil hsome
    rw [hrest, List.length_drop]
    omega

/-- Once header bytes are in the buffer, and none behind the header that they announce,
the rest of the turn does not fault. A length is fixed only behind its header, so the
packet is shorter than it. -/
theorem afterHeader_waiting {required : Nat} {bytes : Bytes}
    (hholds : turn.splitter.HeaderHolds bytes) (hunknown : turn.splitter.packetLen = none)
    (hpacket : turn.splitter.packet.length = turn.splitter.headerLen)
    (hwithin : bytes.length ≤ required)
    (hrequired : required ≤ headerLenAt turn.splitter.proto bytes) :
    ∃ outcome, afterHeader prim width required turn = .ok outcome ∧
      outcome.turn.splitter.Waiting ∧ outcome.turn.rest <:+ turn.rest := by
  have hparsed := MsgSplitter.parsedPacketLen_eq width hholds
  rw [afterHeader_eq]
  cases hframe : frameAt turn.splitter.proto bytes with
  | none =>
      -- The length test and the parse both send the loop round again.
      have hwaiting := MsgSplitter.Waiting.of_headerless hholds hframe hpacket hunknown
      refine ⟨.again turn, ?_, hwaiting, List.suffix_rfl⟩
      rw [hparsed, hframe]
      split <;> rfl
  | some frame =>
      have hheader := Frame.headerLen_eq hframe
      have hcomplete := (frameAt_take hframe).2.1
      have henough : ¬ turn.splitter.headerLen < required := by
        rw [hholds.length]
        omega
      rw [if_neg henough, hparsed, hframe, Option.map_some]
      by_cases hempty : frame.payloadLen = 0
      · refine ⟨.finished (turn.bypass prim), ?_, ?_, List.nil_suffix⟩
        · simp [Frame.storedLen, hempty]
        · exact .of_empty rfl rfl hunknown
      · have hlen : frame.len = frame.headerLen + frame.payloadLen := rfl
        have hlt : (turn.fix frame.len).splitter.packet.length < frame.len := by
          change turn.splitter.packet.length < frame.len
          rw [hpacket, hholds.length]
          omega
        have hknown : (turn.fix frame.len).splitter.packetLen = some frame.len := rfl
        obtain ⟨hwaiting, hsuffix, -⟩ := fill_waiting hknown hlt
        refine ⟨.again ((turn.fix frame.len).fill prim frame.len), ?_, hwaiting, hsuffix⟩
        simp only [Frame.storedLen, if_neg hempty]
        rw [if_neg (by omega), fillPacket_of_some hknown, if_pos hlt.le]

section Header

variable (hwaiting : turn.splitter.Waiting) (hunknown : turn.splitter.packetLen = none)

include hwaiting hunknown

theorem headerCount_le :
    turn.headerCount ≤ turn.rest.length ∧
      turn.splitter.headerLen + turn.headerCount ≤ turn.splitter.requiredHeaderLen := by
  have hlt := hwaiting.header_lt hunknown
  unfold Turn.headerCount
  omega

theorem headerCount_pos (hrest : turn.rest ≠ []) : 0 < turn.headerCount := by
  have hlt := hwaiting.header_lt hunknown
  have hpos := List.length_pos_of_ne_nil hrest
  unfold Turn.headerCount
  omega

/-- The bytes that are missing fit into the header buffer, behind those it holds. -/
theorem exists_readHeader :
    ∃ header, copyIntoHeader turn.splitter.header turn.splitter.headerLen
        (turn.rest.take turn.headerCount) = .ok header ∧
      (turn.readHeader prim header turn.headerCount).splitter.HeaderHolds
        (turn.splitter.held ++ turn.rest.take turn.headerCount) := by
  have hlt := hwaiting.header_lt hunknown
  have hfour := turn.splitter.requiredHeaderLen_le
  obtain ⟨hcount, hwithin⟩ := headerCount_le hwaiting hunknown
  have hholds := turn.splitter.headerHolds_held (by omega)
  have hchunk : (turn.rest.take turn.headerCount).length = turn.headerCount :=
    List.length_take_of_le hcount
  have hroom : turn.splitter.held.length + (turn.rest.take turn.headerCount).length ≤ 4 := by
    rw [hchunk, ← hholds.length]
    omega
  obtain ⟨header, hcopy, hheader⟩ := copyIntoHeader_eq _ hholds hroom
  refine ⟨header, hcopy, ?_, hheader⟩
  rw [List.length_append, hchunk, ← hholds.length]
  rfl

/-- The first half of a turn takes header bytes, and goes on with a known length or with
an incomplete header. -/
theorem splitTurn_header_advances (hrest : turn.rest ≠ []) :
    ∃ outcome, splitTurn prim width turn = .ok outcome ∧ Advances turn outcome := by
  have hlt := hwaiting.header_lt hunknown
  obtain ⟨hcount, hwithin⟩ := headerCount_le hwaiting hunknown
  have hpos := headerCount_pos hwaiting hunknown hrest
  obtain ⟨header, hcopy, hholds⟩ := @exists_readHeader prim turn hwaiting hunknown
  have hpacket : (turn.readHeader prim header turn.headerCount).splitter.packet.length =
      (turn.readHeader prim header turn.headerCount).splitter.headerLen := by
    change (turn.encrypt prim turn.headerCount).splitter.packet.length = _
    rw [length_packet_encrypt hcount, hwaiting.packet_eq hunknown]
    rfl
  have hbytes : (turn.splitter.held ++ turn.rest.take turn.headerCount).length ≤
      turn.splitter.requiredHeaderLen := by
    rw [← hholds.length]
    exact hwithin
  -- More bytes never shorten the header that they announce.
  have hannounced : turn.splitter.requiredHeaderLen ≤
      headerLenAt turn.splitter.proto (turn.splitter.held ++ turn.rest.take turn.headerCount) := by
    rw [MsgSplitter.requiredHeaderLen_eq (turn.splitter.headerHolds_held (by
      have hfour := turn.splitter.requiredHeaderLen_le
      omega))]
    exact headerLenAt_append _ _ _
  obtain ⟨outcome, hafter, hnext, hsuffix⟩ :=
    afterHeader_waiting width hholds hunknown hpacket hbytes hannounced
  refine ⟨outcome, ?_, hnext, hsuffix.trans (List.drop_suffix _ _), ?_⟩
  · rw [splitTurn_of_none width hunknown, if_pos hlt.le, hcopy]
    exact hafter
  · refine hsuffix.length_le.trans_lt ?_
    change (turn.rest.drop turn.headerCount).length < turn.rest.length
    rw [List.length_drop]
    omega

end Header

/-- One turn with bytes left: no subtraction goes below zero, no length is missing, and
it advances. -/
theorem splitTurn_advances (hwaiting : turn.splitter.Waiting) (hrest : turn.rest ≠ []) :
    ∃ outcome, splitTurn prim width turn = .ok outcome ∧ Advances turn outcome := by
  cases hpacketLen : turn.splitter.packetLen with
  | some packetLen =>
      have hlt := hwaiting.packet_lt packetLen hpacketLen
      obtain ⟨hnext, hsuffix, hshorter⟩ := fill_waiting hpacketLen hlt
      refine ⟨.again (turn.fill prim packetLen), ?_, hnext, hsuffix, hshorter hrest⟩
      rw [splitTurn_of_some width hpacketLen, fillPacket_of_some hpacketLen, if_pos hlt.le]
  | none => exact splitTurn_header_advances width hwaiting hpacketLen hrest

end Turn

/-! ## Calls -/

section Calls

variable (prim : Primitives) (width : PointerWidth)

theorem splitLoop_waiting (fuel : Nat) {turn : Turn} (hwaiting : turn.splitter.Waiting)
    (hfuel : turn.rest.length ≤ fuel) :
    ∃ last, splitLoop prim width fuel turn = .ok last ∧ last.splitter.Waiting := by
  refine splitLoop_returns prim width (fun turn => turn.splitter.Waiting)
    (fun _ hturn _ => hturn) ?_ fuel hwaiting hfuel
  intro turn hwaiting hrest
  obtain ⟨outcome, hturn, hadvances⟩ := splitTurn_advances width hwaiting hrest
  cases outcome with
  | again next => exact .inl ⟨next, hturn, hadvances.waiting, hadvances.shorter⟩
  | finished last => exact .inr ⟨last, hturn, hadvances.waiting⟩

theorem splitAndEncrypt_waiting {splitter : MsgSplitter} (hwaiting : splitter.Waiting)
    (chunk : Bytes) (enc : AesCtr256) :
    ∃ parts next enc', splitter.splitAndEncrypt prim width chunk enc = .ok (parts, next, enc') ∧
      next.Waiting := by
  unfold MsgSplitter.splitAndEncrypt
  split
  next => exact ⟨_, _, _, rfl, hwaiting⟩
  next =>
    split
    next => exact ⟨_, _, _, rfl, hwaiting⟩
    next =>
      have hstart : (⟨splitter, chunk, enc, []⟩ : Turn).splitter.Waiting := hwaiting
      obtain ⟨last, hloop, hlast⟩ :=
        splitLoop_waiting prim width chunk.length hstart Nat.le.refl
      rw [hloop]
      exact ⟨_, _, _, rfl, hlast⟩

theorem perform_waiting {splitter : MsgSplitter} (hwaiting : splitter.Waiting)
    (call : Call) (enc : AesCtr256) :
    ∃ parts next enc', splitter.perform prim width enc call = .ok (parts, next, enc') ∧
      next.Waiting := by
  cases call with
  | feed chunk => exact splitAndEncrypt_waiting prim width hwaiting chunk enc
  | flush => exact ⟨_, _, _, rfl, hwaiting.flush⟩

/-- The splitter of one connection. Each call comes with the cipher that it is given. -/
def callSystem (proto : ProtoTag) : System MsgSplitter (Call × AesCtr256) where
  start := .new proto
  step splitter label :=
    (splitter.perform prim width label.2 label.1).toOption.map fun result => result.2.1

/-- The loop of the call on `chunk` is about to test its condition. -/
inductive AtHead (splitter : MsgSplitter) (chunk : Bytes) (enc : AesCtr256) : Turn → Prop
  | enter (hchunk : chunk ≠ []) (henabled : splitter.disabled = false) :
      AtHead splitter chunk enc ⟨splitter, chunk, enc, []⟩
  | again {turn next : Turn} (hhead : AtHead splitter chunk enc turn) (hrest : turn.rest ≠ [])
      (hturn : splitTurn prim width turn = .ok (.again next)) : AtHead splitter chunk enc next

theorem AtHead.waiting {splitter : MsgSplitter} (hwaiting : splitter.Waiting) {chunk : Bytes}
    {enc : AesCtr256} {turn : Turn} (hhead : AtHead prim width splitter chunk enc turn) :
    turn.splitter.Waiting := by
  induction hhead with
  | enter => exact hwaiting
  | again _ hrest hturn ih =>
      obtain ⟨outcome, hok, hadvances⟩ := splitTurn_advances width ih hrest
      cases hturn.symm.trans hok
      exact hadvances.waiting

/-- The calls on a splitter never fail, whatever their order, and between them it waits for
more bytes. So it does at the head of each turn of the loop of the next call; every turn
with bytes left takes at least one, and the call returns. -/
theorem splitter_loop_advances (proto : ProtoTag) (calls : List (Call × AesCtr256)) :
    ∃ splitter, (callSystem prim width proto).run calls = some splitter ∧ splitter.Waiting ∧
      ∀ chunk enc,
        (∀ turn, AtHead prim width splitter chunk enc turn → turn.splitter.Waiting ∧
          (turn.rest ≠ [] →
            ∃ outcome, splitTurn prim width turn = .ok outcome ∧ Advances turn outcome)) ∧
        ∃ result, splitter.splitAndEncrypt prim width chunk enc = .ok result := by
  have hstep : ∀ (splitter : MsgSplitter) (label : Call × AesCtr256), splitter.Waiting →
      ∃ next, (callSystem prim width proto).step splitter label = some next ∧ next.Waiting := by
    rintro splitter ⟨call, enc⟩ hwaiting
    obtain ⟨parts, next, enc', hcall, hnext⟩ := perform_waiting prim width hwaiting call enc
    refine ⟨next, ?_, hnext⟩
    simp only [callSystem, hcall]
    rfl
  obtain ⟨splitter, hrun, hwaiting⟩ :=
    (callSystem prim width proto).exists_runFrom hstep calls (MsgSplitter.waiting_new proto)
  refine ⟨splitter, hrun, hwaiting, fun chunk enc => ⟨fun turn hhead => ?_, ?_⟩⟩
  · have hturn := hhead.waiting prim width hwaiting
    exact ⟨hturn, splitTurn_advances width hturn⟩
  · obtain ⟨parts, next, enc', hcall, -⟩ := splitAndEncrypt_waiting prim width hwaiting chunk enc
    exact ⟨_, hcall⟩

end Calls

end TgWsProxy.Splitter
