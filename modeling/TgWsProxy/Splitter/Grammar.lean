import TgWsProxy.Crypto.Primitives

/-!
# The transport packet grammar

The reference cut of a plaintext stream into MTProto transport packets. It looks
at the whole stream at once and knows nothing of reads, buffers or ciphers. A
layout lists where the complete packets lie and how the stream ends: in an
unfinished packet, or at the first packet whose declared payload is empty,
where cutting stops.
-/

namespace TgWsProxy.Splitter

open TgWsProxy.Crypto

/-- The lengths a packet header declares. -/
structure Frame where
  headerLen : Nat
  payloadLen : Nat
  deriving DecidableEq, Repr

def Frame.len (frame : Frame) : Nat := frame.headerLen + frame.payloadLen

/-- The header at the front of a stream, once all of it is there. -/
def frameAt : ProtoTag → Bytes → Option Frame
  | .abridged, [] => none
  | .abridged, first :: rest =>
      if first = 0x7f ∨ first = 0xff then
        match rest with
        | b1 :: b2 :: b3 :: _ =>
            some ⟨4, 4 * (b1.toNat + 2 ^ 8 * b2.toNat + 2 ^ 16 * b3.toNat)⟩
        | _ => none
      else some ⟨1, 4 * (first.toNat % 2 ^ 7)⟩
  | .intermediate, b0 :: b1 :: b2 :: b3 :: _
  | .paddedIntermediate, b0 :: b1 :: b2 :: b3 :: _ =>
      some ⟨4, (b0.toNat + 2 ^ 8 * b1.toNat + 2 ^ 16 * b2.toNat + 2 ^ 24 * b3.toNat) % 2 ^ 31⟩
  | .intermediate, _ | .paddedIntermediate, _ => none

/-- The header length announced by the first bytes of a packet. -/
def headerLenAt : ProtoTag → Bytes → Nat
  | .abridged, [] => 1
  | .abridged, first :: _ => if first = 0x7f ∨ first = 0xff then 4 else 1
  | .intermediate, _ | .paddedIntermediate, _ => 4

theorem headerLenAt_le (proto : ProtoTag) (stream : Bytes) : headerLenAt proto stream ≤ 4 := by
  unfold headerLenAt
  split
  · decide
  · split <;> decide
  · decide
  · decide

/-- Only the very first byte can announce a longer header. -/
theorem headerLenAt_append (proto : ProtoTag) (stream more : Bytes) :
    headerLenAt proto stream ≤ headerLenAt proto (stream ++ more) := by
  cases proto with
  | intermediate | paddedIntermediate => exact Nat.le_refl 4
  | abridged =>
      cases stream with
      | cons first rest => exact Nat.le_refl _
      | nil =>
          cases more with
          | nil => exact Nat.le_refl 1
          | cons first rest =>
              simp only [headerLenAt, List.nil_append]
              split <;> decide

theorem frameAt_eq_none_iff (proto : ProtoTag) (stream : Bytes) :
    frameAt proto stream = none ↔ stream.length < headerLenAt proto stream := by
  match proto, stream with
  | .abridged, [] => simp [frameAt, headerLenAt]
  | .abridged, first :: rest =>
      by_cases hextended : first = 0x7f ∨ first = 0xff
      · match rest with
        | [] | [_] | [_, _] | _ :: _ :: _ :: _ => simp [frameAt, headerLenAt, hextended]
      · simp [frameAt, headerLenAt, hextended]
  | .intermediate, [] | .intermediate, [_] | .intermediate, [_, _] | .intermediate, [_, _, _]
  | .intermediate, _ :: _ :: _ :: _ :: _ => simp [frameAt, headerLenAt]
  | .paddedIntermediate, [] | .paddedIntermediate, [_] | .paddedIntermediate, [_, _]
  | .paddedIntermediate, [_, _, _]
  | .paddedIntermediate, _ :: _ :: _ :: _ :: _ => simp [frameAt, headerLenAt]

/-- The three forms of a header, each at the front of a stream. -/
inductive Headed : ProtoTag → Bytes → Frame → Prop
  | short {first : UInt8} {rest : Bytes} (hshort : ¬ (first = 0x7f ∨ first = 0xff)) :
      Headed .abridged (first :: rest) ⟨1, 4 * (first.toNat % 2 ^ 7)⟩
  | extended {first b1 b2 b3 : UInt8} {rest : Bytes} (hextended : first = 0x7f ∨ first = 0xff) :
      Headed .abridged (first :: b1 :: b2 :: b3 :: rest)
        ⟨4, 4 * (b1.toNat + 2 ^ 8 * b2.toNat + 2 ^ 16 * b3.toNat)⟩
  | word {proto : ProtoTag} {b0 b1 b2 b3 : UInt8} {rest : Bytes} (hproto : proto ≠ .abridged) :
      Headed proto (b0 :: b1 :: b2 :: b3 :: rest)
        ⟨4, (b0.toNat + 2 ^ 8 * b1.toNat + 2 ^ 16 * b2.toNat + 2 ^ 24 * b3.toNat) % 2 ^ 31⟩

theorem headed_of_frameAt {proto : ProtoTag} {stream : Bytes} {frame : Frame}
    (hframe : frameAt proto stream = some frame) : Headed proto stream frame := by
  match proto, stream with
  | .abridged, first :: rest =>
      by_cases hextended : first = 0x7f ∨ first = 0xff
      · match rest with
        | b1 :: b2 :: b3 :: tail =>
            simp only [frameAt, hextended, if_true, Option.some.injEq] at hframe
            subst hframe
            exact .extended hextended
        | [] | [_] | [_, _] => simp [frameAt, hextended] at hframe
      · simp only [frameAt, hextended, if_false, Option.some.injEq] at hframe
        subst hframe
        exact .short hextended
  | .intermediate, b0 :: b1 :: b2 :: b3 :: tail
  | .paddedIntermediate, b0 :: b1 :: b2 :: b3 :: tail =>
      cases hframe
      exact .word nofun
  | .abridged, [] => cases hframe
  | .intermediate, [] | .intermediate, [_] | .intermediate, [_, _]
  | .intermediate, [_, _, _] => cases hframe
  | .paddedIntermediate, [] | .paddedIntermediate, [_] | .paddedIntermediate, [_, _]
  | .paddedIntermediate, [_, _, _] => cases hframe

theorem Headed.frameAt_eq {proto : ProtoTag} {stream : Bytes} {frame : Frame}
    (hheaded : Headed proto stream frame) : frameAt proto stream = some frame := by
  cases hheaded with
  | short hshort => exact if_neg hshort
  | extended hextended => exact if_pos hextended
  | word hproto =>
      cases proto with
      | abridged => exact (hproto rfl).elim
      | intermediate | paddedIntermediate => rfl

/-- The header decides on its own bytes only. -/
theorem frameAt_append {proto : ProtoTag} {stream : Bytes} {frame : Frame}
    (hframe : frameAt proto stream = some frame) (more : Bytes) :
    frameAt proto (stream ++ more) = some frame := by
  cases headed_of_frameAt hframe with
  | short hshort => exact (Headed.short hshort).frameAt_eq
  | extended hextended => exact (Headed.extended hextended).frameAt_eq
  | word hproto => exact (Headed.word hproto).frameAt_eq

/-- A header is complete exactly when its own length is available, and is never
empty. -/
theorem frameAt_take {proto : ProtoTag} {stream : Bytes} {frame : Frame}
    (hframe : frameAt proto stream = some frame) :
    0 < frame.headerLen ∧ frame.headerLen ≤ stream.length ∧
      frameAt proto (stream.take frame.headerLen) = some frame := by
  cases headed_of_frameAt hframe with
  | short hshort => exact ⟨Nat.one_pos, by simp, (Headed.short hshort).frameAt_eq⟩
  | extended hextended =>
      exact ⟨Nat.succ_pos _, by simp, (Headed.extended hextended).frameAt_eq⟩
  | word hproto => exact ⟨Nat.succ_pos _, by simp, (Headed.word hproto).frameAt_eq⟩

theorem Frame.headerLen_eq {proto : ProtoTag} {stream : Bytes} {frame : Frame}
    (hframe : frameAt proto stream = some frame) :
    frame.headerLen = headerLenAt proto stream := by
  cases headed_of_frameAt hframe with
  | short hshort => exact (if_neg hshort).symm
  | extended hextended => exact (if_pos hextended).symm
  | word hproto =>
      cases proto with
      | abridged => exact (hproto rfl).elim
      | intermediate | paddedIntermediate => rfl

theorem Frame.len_pos {proto : ProtoTag} {stream : Bytes} {frame : Frame}
    (hframe : frameAt proto stream = some frame) : 0 < frame.len := by
  have := (frameAt_take hframe).1
  simp only [Frame.len]
  omega

/-- Bytes without a complete header stop short of any header that further bytes
complete. -/
theorem length_lt_headerLen {proto : ProtoTag} {pending more : Bytes} {frame : Frame}
    (hpending : frameAt proto pending = none)
    (hframe : frameAt proto (pending ++ more) = some frame) :
    pending.length < frame.headerLen := by
  by_contra hle
  obtain ⟨_, _, htake⟩ := frameAt_take hframe
  rw [List.take_append_of_le_length (by omega)] at htake
  have hfull := frameAt_append htake (pending.drop frame.headerLen)
  rw [List.take_append_drop, hpending] at hfull
  exact absurd hfull (by simp)

/-! ## Layouts -/

/-- The bytes `start..stop` of a stream. -/
structure Span where
  start : Nat
  stop : Nat
  deriving DecidableEq, Repr

/-- How the cut of a stream ends: with an unfinished packet from `start` on
(possibly no byte of it yet), or with a packet that declares no payload. -/
inductive Ending
  | tail (start : Nat)
  | emptyPacket (start headerStop : Nat)
  deriving DecidableEq, Repr

structure Layout where
  packets : List Span
  ending : Ending
  deriving DecidableEq, Repr

/-- Cut the bytes of a stream from offset `start` on. -/
def layoutFrom (proto : ProtoTag) (start : Nat) (stream : Bytes) : Layout :=
  match _hframe : frameAt proto stream with
  | none => ⟨[], .tail start⟩
  | some frame =>
      if frame.payloadLen = 0 then ⟨[], .emptyPacket start (start + frame.headerLen)⟩
      else if stream.length < frame.len then ⟨[], .tail start⟩
      else
        let later := layoutFrom proto (start + frame.len) (stream.drop frame.len)
        ⟨⟨start, start + frame.len⟩ :: later.packets, later.ending⟩
termination_by stream.length
decreasing_by
  have := Frame.len_pos _hframe
  simp only [List.length_drop]
  omega

/-- The reference cut of a whole stream. -/
def layout (proto : ProtoTag) (stream : Bytes) : Layout := layoutFrom proto 0 stream

section Unfold

variable {proto : ProtoTag} (start : Nat) {stream : Bytes} {frame : Frame}

theorem layoutFrom_headerless (hframe : frameAt proto stream = none) :
    layoutFrom proto start stream = ⟨[], .tail start⟩ := by
  unfold layoutFrom
  split
  next => rfl
  next found hfound => rw [hframe] at hfound; cases hfound

theorem layoutFrom_of_frame (hframe : frameAt proto stream = some frame) :
    layoutFrom proto start stream =
      if frame.payloadLen = 0 then ⟨[], .emptyPacket start (start + frame.headerLen)⟩
      else if stream.length < frame.len then ⟨[], .tail start⟩
      else
        ⟨⟨start, start + frame.len⟩ ::
            (layoutFrom proto (start + frame.len) (stream.drop frame.len)).packets,
          (layoutFrom proto (start + frame.len) (stream.drop frame.len)).ending⟩ := by
  conv_lhs => unfold layoutFrom
  split
  next hnone => rw [hframe] at hnone; cases hnone
  next found hfound =>
    rw [hframe] at hfound
    cases hfound
    rfl

end Unfold

/-- The layouts that a cut from `start` on can have: packets one behind the other, none
of them empty, and an ending behind the last. -/
inductive CutFrom : Nat → Layout → Prop
  | tail (start : Nat) : CutFrom start ⟨[], .tail start⟩
  | emptyPacket {start headerStop : Nat} (hheader : start < headerStop) :
      CutFrom start ⟨[], .emptyPacket start headerStop⟩
  | packet {start stop : Nat} {later : Layout} (hlen : start < stop)
      (hlater : CutFrom stop later) :
      CutFrom start ⟨⟨start, stop⟩ :: later.packets, later.ending⟩

theorem layoutFrom_cutFrom (proto : ProtoTag) (start : Nat) (stream : Bytes) :
    CutFrom start (layoutFrom proto start stream) := by
  induction start, stream using layoutFrom.induct proto with
  | case1 start stream hframe =>
      rw [layoutFrom_headerless start hframe]
      exact .tail start
  | case2 start stream frame hframe hempty =>
      rw [layoutFrom_of_frame start hframe, if_pos hempty]
      exact .emptyPacket (Nat.lt_add_of_pos_right (frameAt_take hframe).1)
  | case3 start stream frame hframe hempty hshort =>
      rw [layoutFrom_of_frame start hframe, if_neg hempty, if_pos hshort]
      exact .tail start
  | case4 start stream frame hframe hempty hshort ih =>
      rw [layoutFrom_of_frame start hframe, if_neg hempty, if_neg hshort]
      exact .packet (Nat.lt_add_of_pos_right (Frame.len_pos hframe)) ih

/-- Nothing in the layout is decided by the bytes before `pos`. -/
structure Layout.Beyond (layout : Layout) (pos : Nat) : Prop where
  packets : ∀ span ∈ layout.packets, pos < span.stop
  ending : ∀ start headerStop, layout.ending = .emptyPacket start headerStop → pos < headerStop

theorem Layout.Beyond.mono {layout : Layout} {pos earlier : Nat} (hbeyond : layout.Beyond pos)
    (hle : earlier ≤ pos) : layout.Beyond earlier :=
  ⟨fun span hspan => lt_of_le_of_lt hle (hbeyond.packets span hspan),
    fun start headerStop hending => lt_of_le_of_lt hle (hbeyond.ending start headerStop hending)⟩

theorem CutFrom.beyond {start : Nat} {layout : Layout} (hcut : CutFrom start layout) :
    layout.Beyond start := by
  induction hcut with
  | tail start => constructor <;> simp
  | emptyPacket hheader =>
      refine ⟨by simp, ?_⟩
      intro first stop hending
      cases hending
      exact hheader
  | packet hlen _ ih =>
      have hlater := ih.mono hlen.le
      exact ⟨List.forall_mem_cons.mpr ⟨hlen, hlater.packets⟩, hlater.ending⟩

/-! ## What each call must return -/

/-- The pieces of a ciphertext that lie under the given spans. -/
def slices (ciphertext : Bytes) (spans : List Span) : List Bytes :=
  spans.map fun span => ciphertext.extract span.start span.stop

/-- What the call that supplies the bytes `lo..hi` must return: the packets whose
last byte is among these, and from the first empty packet on everything the call
has not returned yet. -/
def Layout.expectedParts (layout : Layout) (ciphertext : Bytes) (lo hi : Nat) : List Bytes :=
  slices ciphertext (layout.packets.filter fun span => lo < span.stop ∧ span.stop ≤ hi) ++
    match layout.ending with
    | .tail _ => []
    | .emptyPacket start headerStop =>
        if hi < headerStop ∨ lo = hi then []
        else if lo < headerStop then [ciphertext.extract start hi]
        else [ciphertext.extract lo hi]

/-- The expected parts of successive calls from offset `lo` on. -/
def Layout.expectedCalls (layout : Layout) (ciphertext : Bytes) :
    Nat → List Bytes → List (List Bytes)
  | _, [] => []
  | lo, chunk :: chunks =>
      layout.expectedParts ciphertext lo (lo + chunk.length) ::
        layout.expectedCalls ciphertext (lo + chunk.length) chunks

/-- What `flush` must return at the end of the stream: the unfinished packet. -/
def Layout.expectedFlush (layout : Layout) (ciphertext : Bytes) : List Bytes :=
  match layout.ending with
  | .tail start => if start < ciphertext.length then [ciphertext.drop start] else []
  | .emptyPacket _ _ => []

end TgWsProxy.Splitter
