import TgWsProxy.Splitter.Grammar
import TgWsProxy.Splitter.Turns

/-!
# The splitter follows the packet grammar

The splitter sees the stream in arbitrary chunks and keeps only the ciphertext
of the packet under assembly, up to four header bytes and a length. The proof
relates that state to the bytes since the last packet boundary: the header
functions of the source read off what the grammar says about those bytes, so
each turn of the loop moves along the reference layout of the whole stream.
-/

namespace TgWsProxy.Splitter

open Foundation.Keystream Foundation.Machine TgWsProxy.Crypto

/-! ## Headers -/

theorem checkedMul_eq (width : PointerWidth) {words : Nat} (hwords : words < 2 ^ 24) :
    width.checkedMul words 4 = some (words * 4) :=
  if_pos (width.le_usizeMax (by omega))

/-- The total length the source stores for a packet: `0` for an empty payload. -/
def Frame.storedLen (frame : Frame) : Nat := if frame.payloadLen = 0 then 0 else frame.len

theorem storedLen_eq (width : PointerWidth) {payloadLen headerLen : Nat}
    (hpayload : payloadLen < 2 ^ 31) (hheader : headerLen ≤ 4) :
    (if payloadLen = 0 then some 0 else some ((width.checkedAdd payloadLen headerLen).getD 0)) =
      some (Frame.storedLen ⟨headerLen, payloadLen⟩) := by
  have hadd : width.checkedAdd payloadLen headerLen = some (payloadLen + headerLen) :=
    if_pos (width.le_usizeMax (by omega))
  rw [hadd, Option.getD_some, Nat.add_comm]
  unfold Frame.storedLen
  split <;> rfl

namespace MsgSplitter

/-- The header buffer holds `bytes`; what lies behind them may be stale. -/
structure HeaderHolds (splitter : MsgSplitter) (bytes : Bytes) : Prop where
  length : splitter.headerLen = bytes.length
  bytes : splitter.header.toList.take bytes.length = bytes

theorem HeaderHolds.headerByte {splitter : MsgSplitter} {bytes : Bytes}
    (hholds : splitter.HeaderHolds bytes) (index : Fin 4) (hindex : index < bytes.length) :
    splitter.headerByte index = bytes.get ⟨index, hindex⟩ := by
  have hget : splitter.header.toList[index.val]? = bytes[index.val]? := by
    conv_rhs => rw [← hholds.bytes]
    rw [List.getElem?_take, if_pos hindex]
  simp only [MsgSplitter.headerByte, List.Vector.get_eq_get_toList]
  simpa [hindex] using hget

theorem parsedPacketLen_abridged (width : PointerWidth) {splitter : MsgSplitter}
    {first : UInt8} {rest : Bytes} (hproto : splitter.proto = .abridged)
    (hholds : splitter.HeaderHolds (first :: rest)) :
    splitter.parsedPacketLen width =
      (frameAt .abridged (first :: rest)).map Frame.storedLen := by
  have hfirst : splitter.headerByte 0 = first := hholds.headerByte 0 (by simp)
  have hlength : splitter.headerLen = rest.length + 1 := hholds.length
  by_cases hextended : first = 0x7f ∨ first = 0xff
  · have hmatch : isExtended first = true := by simpa [isExtended] using hextended
    match rest, hholds, hlength with
    | b1 :: b2 :: b3 :: tail, hholds, hlength =>
        have h1 : splitter.headerByte 1 = b1 := hholds.headerByte 1 (by simp)
        have h2 : splitter.headerByte 2 = b2 := hholds.headerByte 2 (by simp)
        have h3 : splitter.headerByte 3 = b3 := hholds.headerByte 3 (by simp)
        have hvalue : u32FromLeBytes b1 b2 b3 0 =
            b1.toNat + 2 ^ 8 * b2.toNat + 2 ^ 16 * b3.toNat := by simp [u32FromLeBytes]
        have hwords : b1.toNat + 2 ^ 8 * b2.toNat + 2 ^ 16 * b3.toNat < 2 ^ 24 := by
          have := b1.toNat_lt
          have := b2.toNat_lt
          have := b3.toNat_lt
          omega
        have henough : ¬ tail.length + 1 + 1 + 1 + 1 < 4 := by omega
        simp only [parsedPacketLen, hproto, hfirst, hmatch, h1, h2, h3, hlength, if_true, hvalue,
          checkedMul_eq width hwords, List.length_cons, if_neg henough, frameAt, hextended,
          Option.map_some]
        rw [storedLen_eq width (by omega) (Nat.le_refl 4), Nat.mul_comm]
    | [], _, hlength | [_], _, hlength | [_, _], _, hlength =>
        simp [parsedPacketLen, hproto, hfirst, hmatch, hlength, frameAt, hextended]
  · have hmatch : isExtended first = false := by
      simpa [isExtended] using hextended
    have hmask : (first &&& 0x7f).toNat = first.toNat % 2 ^ 7 := by
      rw [UInt8.toNat_and]
      exact Nat.and_two_pow_sub_one_eq_mod first.toNat 7
    have hwords : first.toNat % 2 ^ 7 < 2 ^ 24 := by omega
    simp only [parsedPacketLen, hproto, hfirst, hmatch, hlength, Bool.false_eq_true, if_false,
      hmask, checkedMul_eq width hwords, frameAt, hextended, Option.map_some]
    rw [if_neg (by omega), storedLen_eq width (by omega) (by decide), Nat.mul_comm]

theorem parsedPacketLen_intermediate (width : PointerWidth) {splitter : MsgSplitter}
    {bytes : Bytes} (hproto : splitter.proto ≠ .abridged) (hholds : splitter.HeaderHolds bytes) :
    splitter.parsedPacketLen width = (frameAt splitter.proto bytes).map Frame.storedLen := by
  have hlength := hholds.length
  match bytes, hholds, hlength with
  | b0 :: b1 :: b2 :: b3 :: tail, hholds, hlength =>
      have h0 : splitter.headerByte 0 = b0 := hholds.headerByte 0 (by simp)
      have h1 : splitter.headerByte 1 = b1 := hholds.headerByte 1 (by simp)
      have h2 : splitter.headerByte 2 = b2 := hholds.headerByte 2 (by simp)
      have h3 : splitter.headerByte 3 = b3 := hholds.headerByte 3 (by simp)
      have hmask : u32FromLeBytes b0 b1 b2 b3 &&& 0x7fffffff =
          u32FromLeBytes b0 b1 b2 b3 % 2 ^ 31 := Nat.and_two_pow_sub_one_eq_mod _ 31
      have hpayload : u32FromLeBytes b0 b1 b2 b3 % 2 ^ 31 < 2 ^ 31 := Nat.mod_lt _ (by decide)
      have henough : ¬ tail.length + 1 + 1 + 1 + 1 < 4 := by omega
      cases htag : splitter.proto with
      | abridged => exact absurd htag hproto
      | intermediate | paddedIntermediate =>
          simp only [parsedPacketLen, htag, h0, h1, h2, h3, hlength, List.length_cons,
            if_neg henough, hmask, storedLen_eq width hpayload (Nat.le_refl 4), frameAt,
            Option.map_some]
          rfl
  | [], _, hlength | [_], _, hlength | [_, _], _, hlength | [_, _, _], _, hlength =>
      cases htag : splitter.proto with
      | abridged => exact absurd htag hproto
      | intermediate | paddedIntermediate => simp [parsedPacketLen, htag, hlength, frameAt]

/-- `parsed_packet_len` reads the grammar's frame off the header buffer. -/
theorem parsedPacketLen_eq (width : PointerWidth) {splitter : MsgSplitter} {bytes : Bytes}
    (hholds : splitter.HeaderHolds bytes) :
    splitter.parsedPacketLen width = (frameAt splitter.proto bytes).map Frame.storedLen := by
  by_cases hproto : splitter.proto = .abridged
  · rw [hproto]
    cases bytes with
    | nil =>
        -- With no header byte read, either length test of the source fails.
        have hlength : splitter.headerLen = 0 := hholds.length
        simp only [parsedPacketLen, hproto, hlength, frameAt, Option.map_none]
        split <;> rfl
    | cons first rest => exact parsedPacketLen_abridged width hproto hholds
  · exact parsedPacketLen_intermediate width hproto hholds

/-- `required_header_len` asks for the header that the bytes read so far announce. -/
theorem requiredHeaderLen_eq {splitter : MsgSplitter} {pending : Bytes}
    (hholds : splitter.HeaderHolds pending) :
    splitter.requiredHeaderLen = headerLenAt splitter.proto pending := by
  have hlength := hholds.length
  cases hproto : splitter.proto with
  | intermediate | paddedIntermediate => simp [requiredHeaderLen, headerLenAt, hproto]
  | abridged =>
      cases pending with
      | nil => simp [requiredHeaderLen, headerLenAt, hproto, hlength]
      | cons first rest =>
          have hfirst : splitter.headerByte 0 = first := hholds.headerByte 0 (by simp)
          by_cases hextended : first = 0x7f ∨ first = 0xff
          · have hmatch : isExtended first = true := by simpa [isExtended] using hextended
            simp [requiredHeaderLen, headerLenAt, hproto, hlength, hfirst, hmatch, hextended]
          · have hmatch : isExtended first = false := by simpa [isExtended] using hextended
            simp [requiredHeaderLen, headerLenAt, hproto, hfirst, hmatch, hextended]

end MsgSplitter

theorem copyIntoHeader_eq {splitter : MsgSplitter} {pending : Bytes} (chunk : Bytes)
    (hholds : splitter.HeaderHolds pending) (hroom : pending.length + chunk.length ≤ 4) :
    ∃ header : Block 4,
      copyIntoHeader splitter.header splitter.headerLen chunk = .ok header ∧
        header.toList.take (pending ++ chunk).length = pending ++ chunk := by
  have hbound : splitter.headerLen + chunk.length ≤ maxHeaderLen := by
    rw [hholds.length]
    exact hroom
  refine ⟨_, dif_pos hbound, ?_⟩
  have hlength := hholds.length
  change List.take _ (splitter.header.toList.take splitter.headerLen ++ chunk ++ _) = _
  rw [hlength, hholds.bytes]
  exact List.take_left

/-! ## Positions in the stream -/

theorem extract_append_extract (bytes : Bytes) {start middle stop : Nat} (hstart : start ≤ middle)
    (hstop : middle ≤ stop) :
    bytes.extract start middle ++ bytes.extract middle stop = bytes.extract start stop := by
  simp only [List.extract_eq_take_drop]
  have hsplit : stop - start = (middle - start) + (stop - middle) := by omega
  rw [hsplit, List.take_add, List.drop_drop]
  congr 4
  omega

theorem take_append_extract (bytes : Bytes) {pos next : Nat} (hnext : pos ≤ next) :
    bytes.take pos ++ bytes.extract pos next = bytes.take next := by
  have hjoin := extract_append_extract bytes (Nat.zero_le pos) hnext
  simpa [List.extract_eq_take_drop] using hjoin

theorem extract_length {bytes : Bytes} {start stop : Nat} (hstop : stop ≤ bytes.length) :
    (bytes.extract start stop).length = stop - start := by
  simp only [List.extract_eq_take_drop, List.length_take, List.length_drop]
  omega

theorem extract_take {bytes : Bytes} {start stop count : Nat} (hcount : start + count ≤ stop) :
    (bytes.extract start stop).take count = bytes.extract start (start + count) := by
  simp only [List.extract_eq_take_drop, List.take_take]
  congr 1
  omega

theorem extract_drop (bytes : Bytes) (start stop count : Nat) :
    (bytes.extract start stop).drop count = bytes.extract (start + count) stop := by
  simp only [List.extract_eq_take_drop, List.drop_take, List.drop_drop]
  congr 1
  omega

theorem drop_eq_extract_append {bytes : Bytes} {start stop : Nat} (hstart : start ≤ stop) :
    bytes.drop start = bytes.extract start stop ++ bytes.drop stop := by
  have hdrop : bytes.drop stop = (bytes.drop start).drop (stop - start) := by
    rw [List.drop_drop]
    congr 1
    omega
  rw [List.extract_eq_take_drop, hdrop, List.take_append_drop]

/-- A frame that a piece of the stream holds is the frame of the stream there. -/
theorem frameAt_drop {proto : ProtoTag} {bytes : Bytes} {start stop : Nat} {frame : Frame}
    (hstart : start ≤ stop) (hframe : frameAt proto (bytes.extract start stop) = some frame) :
    frameAt proto (bytes.drop start) = some frame := by
  rw [drop_eq_extract_append hstart]
  exact frameAt_append hframe _

/-- The first chunk of what is left of a stream. -/
theorem extract_of_drop_eq {bytes chunk rest : Bytes} {pos : Nat}
    (hpos : pos ≤ bytes.length) (hdrop : bytes.drop pos = chunk ++ rest) :
    pos + chunk.length ≤ bytes.length ∧ bytes.extract pos (pos + chunk.length) = chunk ∧
      bytes.drop (pos + chunk.length) = rest := by
  have hlength := congrArg List.length hdrop
  simp only [List.length_drop, List.length_append] at hlength
  refine ⟨by omega, ?_, ?_⟩
  · rw [List.extract_eq_take_drop, hdrop, Nat.add_sub_cancel_left]
    exact List.take_left
  · rw [← List.drop_drop, hdrop]
    exact List.drop_left

/-! ## The simulation relation -/

/-- What the splitter remembers about the bytes since the last packet boundary. -/
def MsgSplitter.Remembers (splitter : MsgSplitter) (pending : Bytes) : Prop :=
  match splitter.packetLen with
  | none => splitter.HeaderHolds pending ∧ frameAt splitter.proto pending = none
  | some packetLen =>
      ∃ frame, frameAt splitter.proto pending = some frame ∧ frame.payloadLen ≠ 0 ∧
        packetLen = frame.len ∧ pending.length < packetLen

section Simulation

variable (prim : Primitives) (width : PointerWidth) (proto : ProtoTag) (origin : AesCtr256)
  (whole : Bytes)

/-- The first `pos` bytes of the stream have been consumed and the packet that
starts at `start` is under assembly. The packets in `done` end before, and the
rest of the reference layout is still to come. -/
structure Assembling (done : List Span) (start pos : Nat) (splitter : MsgSplitter)
    (enc : AesCtr256) : Prop where
  same_proto : splitter.proto = proto
  enabled : splitter.disabled = false
  start_le : start ≤ pos
  pos_le : pos ≤ whole.length
  cipher : enc = origin.advance pos
  packet : splitter.packet = (origin.mask prim.ks whole).extract start pos
  remembers : splitter.Remembers (whole.extract start pos)
  packets : (layout proto whole).packets =
    done ++ (layoutFrom proto start (whole.drop start)).packets
  ending : (layout proto whole).ending = (layoutFrom proto start (whole.drop start)).ending
  done_le : ∀ span ∈ done, span.stop ≤ pos

/-- An empty packet has been seen: the splitter passes everything through. -/
structure Bypassed (pos : Nat) (splitter : MsgSplitter) (enc : AesCtr256) : Prop where
  disabled : splitter.disabled = true
  packet : splitter.packet = []
  cipher : enc = origin.advance pos
  packets_le : ∀ span ∈ (layout proto whole).packets, span.stop ≤ pos
  ending : ∃ start headerStop,
    (layout proto whole).ending = .emptyPacket start headerStop ∧ headerStop ≤ pos

/-- Between two turns of the loop of the call on the bytes `lo..hi`. -/
structure Looping (lo hi : Nat) (done : List Span) (start pos : Nat) (turn : Turn) : Prop where
  assembling : Assembling prim proto origin whole done start pos turn.splitter turn.enc
  lo_le : lo ≤ pos
  pos_le : pos ≤ hi
  hi_le : hi ≤ whole.length
  rest : turn.rest = whole.extract pos hi
  parts : turn.parts =
    slices (origin.mask prim.ks whole) (done.filter fun span => lo < span.stop)

variable {prim proto origin whole}

/-- What the grammar says about the packet under assembly: its header or its
body is still incomplete at `pos`. -/
theorem Assembling.frame_beyond {done : List Span} {start pos : Nat} {splitter : MsgSplitter}
    {enc : AesCtr256} (hasm : Assembling prim proto origin whole done start pos splitter enc)
    {frame : Frame} (hframe : frameAt proto (whole.drop start) = some frame) :
    pos < start + frame.headerLen ∨ (frame.payloadLen ≠ 0 ∧ pos < start + frame.len) := by
  have hpending : (whole.extract start pos).length = pos - start := extract_length hasm.pos_le
  have hremembers := hasm.remembers
  rw [drop_eq_extract_append hasm.start_le] at hframe
  unfold MsgSplitter.Remembers at hremembers
  split at hremembers
  next =>
    left
    rw [hasm.same_proto] at hremembers
    have := length_lt_headerLen hremembers.2 hframe
    omega
  next packetLen _ =>
    right
    obtain ⟨known, hknown, hpayload, hlen, hlt⟩ := hremembers
    rw [hasm.same_proto] at hknown
    have hsame := frameAt_append hknown (whole.drop pos)
    rw [hframe] at hsame
    cases hsame
    refine ⟨hpayload, ?_⟩
    omega

/-- Nothing of the remaining layout is due yet. -/
theorem Assembling.beyond {done : List Span} {start pos : Nat} {splitter : MsgSplitter}
    {enc : AesCtr256} (hasm : Assembling prim proto origin whole done start pos splitter enc) :
    (layoutFrom proto start (whole.drop start)).Beyond pos := by
  cases hframe : frameAt proto (whole.drop start) with
  | none =>
      rw [layoutFrom_headerless start hframe]
      constructor <;> simp
  | some frame =>
      have hbeyond := hasm.frame_beyond hframe
      have hlen : frame.headerLen ≤ frame.len := Nat.le_add_right _ _
      rw [layoutFrom_of_frame start hframe]
      split
      next hempty =>
        refine ⟨by simp, ?_⟩
        intro first headerStop hending
        cases hending
        omega
      next =>
        split
        next => constructor <;> simp
        next =>
          have hstop : pos < start + frame.len := by omega
          have hlater := (layoutFrom_cutFrom proto (start + frame.len)
            ((whole.drop start).drop frame.len)).beyond.mono hstop.le
          exact ⟨List.forall_mem_cons.mpr ⟨hstop, hlater.packets⟩, hlater.ending⟩

/-- Encrypting the next bytes of the stream extends the packet under assembly. -/
theorem Assembling.packet_append {done : List Span} {start pos next : Nat}
    {splitter : MsgSplitter} {enc : AesCtr256}
    (hasm : Assembling prim proto origin whole done start pos splitter enc) (hnext : pos ≤ next) :
    splitter.packet ++ enc.mask prim.ks (whole.extract pos next) =
      (origin.mask prim.ks whole).extract start next := by
  rw [hasm.packet, hasm.cipher, ← Cipher.mask_extract,
    extract_append_extract _ hasm.start_le hnext]

/-- More bytes of the same packet. -/
theorem Assembling.extend {done : List Span} {start pos next : Nat} {splitter : MsgSplitter}
    {enc : AesCtr256} (hasm : Assembling prim proto origin whole done start pos splitter enc)
    (hnext : pos ≤ next) (hwhole : next ≤ whole.length) {extended : MsgSplitter}
    (hproto : extended.proto = splitter.proto) (hdisabled : extended.disabled = splitter.disabled)
    (hpacket : extended.packet = (origin.mask prim.ks whole).extract start next)
    (hremembers : extended.Remembers (whole.extract start next)) :
    Assembling prim proto origin whole done start next extended (origin.advance next) where
  same_proto := hproto.trans hasm.same_proto
  enabled := hdisabled.trans hasm.enabled
  start_le := hasm.start_le.trans hnext
  pos_le := hwhole
  cipher := rfl
  packet := hpacket
  remembers := hremembers
  packets := hasm.packets
  ending := hasm.ending
  done_le := fun span hspan => (hasm.done_le span hspan).trans hnext

/-- The last byte of the packet: the layout's next span is this packet. -/
theorem Assembling.complete {done : List Span} {start pos : Nat} {splitter : MsgSplitter}
    {enc : AesCtr256} (hasm : Assembling prim proto origin whole done start pos splitter enc)
    {frame : Frame} (hframe : frameAt proto (whole.extract start pos) = some frame)
    (hpayload : frame.payloadLen ≠ 0) (hpos : pos ≤ start + frame.len)
    (hwhole : start + frame.len ≤ whole.length) :
    Assembling prim proto origin whole (done ++ [⟨start, start + frame.len⟩])
      (start + frame.len) (start + frame.len)
      { splitter with packet := [], headerLen := 0, packetLen := none }
      (origin.advance (start + frame.len)) := by
  have hlayout := layoutFrom_of_frame start (frameAt_drop hasm.start_le hframe)
  rw [if_neg hpayload, if_neg (by simp only [List.length_drop]; omega), List.drop_drop] at hlayout
  have hempty : whole.extract (start + frame.len) (start + frame.len) = [] := by
    simp [List.extract_eq_take_drop]
  refine
    { same_proto := hasm.same_proto
      enabled := hasm.enabled
      start_le := Nat.le_refl _
      pos_le := hwhole
      cipher := rfl
      packet := by simp [List.extract_eq_take_drop]
      remembers := ?_
      packets := ?_
      ending := ?_
      done_le := ?_ }
  -- No byte of the next packet has been read, so no header is known.
  · rw [hempty]
    refine ⟨⟨rfl, rfl⟩, ?_⟩
    cases hproto : splitter.proto <;> rfl
  · rw [hasm.packets, hlayout, List.append_assoc]
    rfl
  · rw [hasm.ending, hlayout]
  · intro span hspan
    rcases List.mem_append.mp hspan with hspan | hspan
    · exact (hasm.done_le span hspan).trans hpos
    · rw [List.mem_singleton.mp hspan]

theorem Looping.length_rest {lo hi : Nat} {done : List Span} {start pos : Nat} {turn : Turn}
    (hloop : Looping prim proto origin whole lo hi done start pos turn) :
    turn.rest.length = hi - pos := by
  rw [hloop.rest, extract_length hloop.hi_le]

/-- Encrypting the bytes of the call up to `next` moves along the stream. -/
theorem Looping.encrypt_eq {lo hi : Nat} {done : List Span} {start pos next : Nat} {turn : Turn}
    (hloop : Looping prim proto origin whole lo hi done start pos turn) (hpos : pos ≤ next)
    (hnext : next ≤ hi) :
    turn.encrypt prim (next - pos) =
      { splitter :=
          { turn.splitter with packet := (origin.mask prim.ks whole).extract start next }
        rest := whole.extract next hi
        enc := origin.advance next
        parts := turn.parts } := by
  have hasm := hloop.assembling
  have hhi := hloop.hi_le
  have hchunk : turn.rest.take (next - pos) = whole.extract pos next := by
    rw [hloop.rest, extract_take (by omega), Nat.add_sub_cancel' hpos]
  have hafter : turn.rest.drop (next - pos) = whole.extract next hi := by
    rw [hloop.rest, extract_drop, Nat.add_sub_cancel' hpos]
  have hlength : (whole.extract pos next).length = next - pos := extract_length (by omega)
  unfold Turn.encrypt
  rw [hchunk, hasm.packet_append hpos, hafter, hlength, hasm.cipher, Cipher.advance_advance,
    Nat.add_sub_cancel' hpos]

/-- The second half of a turn stays on the reference layout and moves on by at
least one byte whenever the call still has one. -/
theorem fillPacket_looping {lo hi : Nat} {done : List Span} {start pos : Nat} {turn : Turn}
    (hloop : Looping prim proto origin whole lo hi done start pos turn) {packetLen : Nat}
    (hpacketLen : turn.splitter.packetLen = some packetLen) :
    ∃ next done' start' pos', fillPacket prim turn = .ok (.again next) ∧
      Looping prim proto origin whole lo hi done' start' pos' next ∧
      pos ≤ pos' ∧ (pos < hi → pos < pos') := by
  have hasm := hloop.assembling
  have hlo := hloop.lo_le
  have hpos := hloop.pos_le
  have hhi := hloop.hi_le
  have hstart := hasm.start_le
  have hlength : turn.splitter.packet.length = pos - start := by
    rw [hasm.packet, extract_length (by simpa using hasm.pos_le)]
  have hremembers := hasm.remembers
  simp only [MsgSplitter.Remembers, hpacketLen, hasm.same_proto] at hremembers
  obtain ⟨frame, hframe, hpayload, rfl, hlt⟩ := hremembers
  rw [extract_length hasm.pos_le] at hlt
  have hrest := hloop.length_rest
  obtain ⟨next, hcount, hforward, hwithin, hfinal⟩ : ∃ next,
      min (frame.len - (pos - start)) (hi - pos) = next - pos ∧ pos ≤ next ∧
        (next ≤ start + frame.len ∧ next ≤ hi) ∧ (next < start + frame.len → next = hi) :=
    ⟨min (start + frame.len) hi, by omega⟩
  have hfull : ((origin.mask prim.ks whole).extract start next).length = next - start :=
    extract_length (by simp; omega)
  rw [fillPacket_of_some hpacketLen, if_pos (by omega)]
  simp only [Turn.fill, hlength, hrest, hcount, hloop.encrypt_eq hforward hwithin.2, hfull]
  clear hcount
  by_cases hcomplete : next - start = frame.len
  · have hstop : start + frame.len = next := by omega
    rw [if_pos hcomplete]
    refine ⟨_, done ++ [⟨start, next⟩], next, next, rfl, ?_, by omega, by omega⟩
    have hdone := hasm.complete hframe hpayload (by omega) (by omega)
    rw [hstop] at hdone
    refine ⟨hdone, by omega, by omega, hhi, rfl, ?_⟩
    -- The packet ends in this call, since its last byte was still missing at `pos ≥ lo`.
    have hnew : lo < next := by omega
    simp [Turn.emit, hloop.parts, slices, hnew]
  · rw [if_neg hcomplete]
    refine ⟨_, done, start, next, rfl, ?_, by omega, by omega⟩
    refine ⟨hasm.extend (by omega) (by omega) rfl rfl rfl ?_, by omega, by omega, hhi, rfl,
      hloop.parts⟩
    have hknown : frameAt proto (whole.extract start next) = some frame := by
      rw [← extract_append_extract whole hstart (by omega : pos ≤ next)]
      exact frameAt_append hframe _
    simp only [MsgSplitter.Remembers, hpacketLen, hasm.same_proto]
    refine ⟨frame, hknown, hpayload, rfl, ?_⟩
    rw [extract_length (by omega)]
    omega

end Simulation

end TgWsProxy.Splitter
