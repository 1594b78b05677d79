import TgWsProxy.Crypto.Primitives
import TgWsProxy.Foundation.Machine

/-!
# The message splitter

`MsgSplitter` cuts the decrypted upload stream into MTProto transport packets
and encrypts them for Telegram as it goes. The embedding follows the source
loop turn by turn: `rest` is `plaintext[offset..]`. Everything that would abort
the process (a `usize` subtraction below zero, an index outside the header
buffer, the `expect` on the packet length) is a `Fault`, and so is a loop that
takes more turns than the chunk has bytes.
-/

namespace TgWsProxy.Splitter

open Foundation.Keystream Foundation.Machine TgWsProxy.Crypto

/-- The ways a call could fail to return. -/
inductive Fault
  | underflow
  | headerIndex
  | missingPacketLen
  | diverged
  deriving DecidableEq, Repr

def maxHeaderLen : Nat := 4

structure MsgSplitter where
  proto : ProtoTag
  packet : Bytes
  header : Block 4
  headerLen : Nat
  packetLen : Option Nat
  disabled : Bool

/-- `usize` subtraction, which must not go below zero. -/
def usizeSub (left right : Nat) : Except Fault Nat :=
  if right ≤ left then .ok (left - right) else .error .underflow

/-- `header[start..start + bytes.len()].copy_from_slice(bytes)`. -/
def copyIntoHeader (header : Block 4) (start : Nat) (bytes : Bytes) : Except Fault (Block 4) :=
  if hbound : start + bytes.length ≤ maxHeaderLen then
    .ok ⟨header.toList.take start ++ bytes ++ header.toList.drop (start + bytes.length), by
      simp only [maxHeaderLen] at hbound
      simp only [List.length_append, List.length_take, List.length_drop,
        List.Vector.toList_length]
      omega⟩
  else .error .headerIndex

/-- `matches!(byte, 0x7f | 0xff)`. -/
def isExtended (byte : UInt8) : Bool := byte == 0x7f || byte == 0xff

/-- `u32::from_le_bytes`. -/
def u32FromLeBytes (b0 b1 b2 b3 : UInt8) : Nat :=
  b0.toNat + 2 ^ 8 * b1.toNat + 2 ^ 16 * b2.toNat + 2 ^ 24 * b3.toNat

namespace MsgSplitter

def new (proto : ProtoTag) : MsgSplitter where
  proto := proto
  packet := []
  header := ⟨[0, 0, 0, 0], rfl⟩
  headerLen := 0
  packetLen := none
  disabled := false

/-- `self.header[index]`. -/
def headerByte (splitter : MsgSplitter) (index : Fin 4) : UInt8 := splitter.header.get index

def requiredHeaderLen (splitter : MsgSplitter) : Nat :=
  match splitter.proto with
  | .abridged =>
      if splitter.headerLen = 0 ∨ isExtended (splitter.headerByte 0) = false then 1 else 4
  | .intermediate | .paddedIntermediate => 4

def parsedPacketLen (width : PointerWidth) (splitter : MsgSplitter) : Option Nat :=
  match splitter.proto with
  | .abridged =>
      let extended := isExtended (splitter.headerByte 0)
      let headerLen := if extended then 4 else 1
      if splitter.headerLen < headerLen then none
      else
        let words :=
          if extended then
            u32FromLeBytes (splitter.headerByte 1) (splitter.headerByte 2)
              (splitter.headerByte 3) 0
          else (splitter.headerByte 0 &&& 0x7f).toNat
        match width.checkedMul words 4 with
        | none => none
        | some payloadLen =>
            if payloadLen = 0 then some 0
            else some ((width.checkedAdd payloadLen headerLen).getD 0)
  | .intermediate | .paddedIntermediate =>
      if splitter.headerLen < 4 then none
      else
        let payloadLen :=
          u32FromLeBytes (splitter.headerByte 0) (splitter.headerByte 1) (splitter.headerByte 2)
            (splitter.headerByte 3) &&& 0x7fffffff
        if payloadLen = 0 then some 0 else some ((width.checkedAdd payloadLen 4).getD 0)

def encryptIntoPacket (prim : Primitives) (splitter : MsgSplitter) (plaintext : Bytes)
    (enc : AesCtr256) : MsgSplitter × AesCtr256 :=
  let (masked, enc) := enc.applyKeystream prim.ks plaintext
  ({ splitter with packet := splitter.packet ++ masked }, enc)

end MsgSplitter

/-- The local variables of `split_and_encrypt` between two turns of its loop. -/
structure Turn where
  splitter : MsgSplitter
  rest : Bytes
  enc : AesCtr256
  parts : List Bytes

/-- A turn either reaches the loop's end or returns from the function. -/
inductive Outcome
  | again (turn : Turn)
  | finished (turn : Turn)

/-- The second half of a turn: bytes of a packet whose length is known. -/
def fillPacket (prim : Primitives) (turn : Turn) : Except Fault Outcome :=
  match turn.splitter.packetLen with
  | none => .error .missingPacketLen
  | some packetLen => do
      let remaining ← usizeSub packetLen turn.splitter.packet.length
      let take := min remaining turn.rest.length
      let (splitter, enc) :=
        turn.splitter.encryptIntoPacket prim (turn.rest.take take) turn.enc
      let rest := turn.rest.drop take
      if splitter.packet.length = packetLen then
        return .again
          { splitter := { splitter with packet := [], headerLen := 0, packetLen := none }
            rest, enc, parts := turn.parts ++ [splitter.packet] }
      else
        return .again { splitter, rest, enc, parts := turn.parts }

/-- What a turn does once the header bytes it could get are in the buffer. -/
def afterHeader (prim : Primitives) (width : PointerWidth) (required : Nat) (turn : Turn) :
    Except Fault Outcome :=
  if turn.splitter.headerLen < required then .ok (.again turn)
  else
    match turn.splitter.parsedPacketLen width with
    | none => .ok (.again turn)
    | some packetLen =>
        if packetLen = 0 then
          -- An empty or overlong packet: the rest of the call goes out with the header bytes.
          let (splitter, enc) := turn.splitter.encryptIntoPacket prim turn.rest turn.enc
          .ok (.finished
            { splitter := { splitter with packet := [], disabled := true, headerLen := 0 }
              rest := []
              enc
              parts := turn.parts ++ [splitter.packet] })
        else
          fillPacket prim
            { turn with splitter := { turn.splitter with packetLen := some packetLen } }

/-- One turn of the loop in `split_and_encrypt`. -/
def splitTurn (prim : Primitives) (width : PointerWidth) (turn : Turn) : Except Fault Outcome :=
  match turn.splitter.packetLen with
  | some _ => fillPacket prim turn
  | none => do
      let required := turn.splitter.requiredHeaderLen
      -- Header bytes are encrypted into the packet like any others; the buffer keeps a
      -- plaintext copy.
      let missing ← usizeSub required turn.splitter.headerLen
      let take := min missing turn.rest.length
      let chunk := turn.rest.take take
      let header ← copyIntoHeader turn.splitter.header turn.splitter.headerLen chunk
      let (splitter, enc) :=
        { turn.splitter with header, headerLen := turn.splitter.headerLen + take }.encryptIntoPacket
          prim chunk turn.enc
      afterHeader prim width required
        { splitter, rest := turn.rest.drop take, enc, parts := turn.parts }

/-- `while offset < plaintext.len()`, for at most `fuel` turns. -/
def splitLoop (prim : Primitives) (width : PointerWidth) : Nat → Turn → Except Fault Turn
  | fuel, turn =>
      if turn.rest = [] then .ok turn
      else
        match fuel with
        | 0 => .error .diverged
        | fuel + 1 => do
            match ← splitTurn prim width turn with
            | .again next => splitLoop prim width fuel next
            | .finished last => return last

namespace MsgSplitter

/-- The parts returned, the splitter and the cipher after the call. -/
def splitAndEncrypt (prim : Primitives) (width : PointerWidth) (splitter : MsgSplitter)
    (plaintext : Bytes) (enc : AesCtr256) :
    Except Fault (List Bytes × MsgSplitter × AesCtr256) :=
  if plaintext = [] then .ok ([], splitter, enc)
  else if splitter.disabled then
    let (masked, enc) := enc.applyKeystream prim.ks plaintext
    .ok ([masked], splitter, enc)
  else do
    -- Each turn consumes a byte, so the length of the input is enough fuel.
    let last ← splitLoop prim width plaintext.length
      { splitter, rest := plaintext, enc, parts := [] }
    return (last.parts, last.splitter, last.enc)

def flush (splitter : MsgSplitter) : List Bytes × MsgSplitter :=
  if splitter.packet = [] then ([], splitter)
  else
    ([splitter.packet], { splitter with packet := [], headerLen := 0, packetLen := none })

/-- Successive calls, one for each chunk, with the parts each call returned. -/
def splitAll (prim : Primitives) (width : PointerWidth) (splitter : MsgSplitter)
    (enc : AesCtr256) : List Bytes → Except Fault (List (List Bytes) × MsgSplitter × AesCtr256)
  | [] => .ok ([], splitter, enc)
  | chunk :: chunks => do
      let (parts, splitter, enc) ← splitter.splitAndEncrypt prim width chunk enc
      let (later, splitter, enc) ← splitAll prim width splitter enc chunks
      return (parts :: later, splitter, enc)

end MsgSplitter

end TgWsProxy.Splitter
