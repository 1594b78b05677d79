import TgWsProxy.Splitter.Model

/-!
# What a turn of the loop does

A turn that does not fault is one of a few changes of the loop's variables. The
changes are written here as functions of the turn, and each half of the loop body
is shown to make one of them exactly when its subtraction and its index are in
range. Every invariant of the splitter is proved from these lemmas.
-/

namespace TgWsProxy.Splitter

open Foundation.Keystream Foundation.Machine TgWsProxy.Crypto

section Turns

variable (prim : Primitives) (width : PointerWidth)

/-- The first `count` bytes of the rest are encrypted into the packet. -/
def Turn.encrypt (turn : Turn) (count : Nat) : Turn where
  splitter :=
    { turn.splitter with
      packet := turn.splitter.packet ++ turn.enc.mask prim.ks (turn.rest.take count) }
  rest := turn.rest.drop count
  enc := turn.enc.advance (turn.rest.take count).length
  parts := turn.parts

/-- The packet is complete, and the next byte begins another one. -/
def Turn.emit (turn : Turn) : Turn where
  splitter := { turn.splitter with packet := [], headerLen := 0, packetLen := none }
  rest := turn.rest
  enc := turn.enc
  parts := turn.parts ++ [turn.splitter.packet]

/-- The packet grows to the given length, or as far as the rest goes. -/
def Turn.fill (turn : Turn) (packetLen : Nat) : Turn :=
  let filled :=
    turn.encrypt prim (min (packetLen - turn.splitter.packet.length) turn.rest.length)
  if filled.splitter.packet.length = packetLen then filled.emit else filled

/-- The first `count` bytes of the rest are read as header bytes, and the buffer is
`header` now. -/
def Turn.readHeader (turn : Turn) (header : Block 4) (count : Nat) : Turn :=
  let read := turn.encrypt prim count
  { read with
    splitter := { read.splitter with header, headerLen := turn.splitter.headerLen + count } }

/-- The length of the packet is known from its header. -/
def Turn.fix (turn : Turn) (packetLen : Nat) : Turn :=
  { turn with splitter := { turn.splitter with packetLen := some packetLen } }

/-- An empty or overlong packet: all of the rest goes out with it, and the splitter
gives up. -/
def Turn.bypass (turn : Turn) : Turn :=
  let filled := turn.encrypt prim turn.rest.length
  { splitter := { filled.splitter with packet := [], disabled := true, headerLen := 0 }
    rest := []
    enc := filled.enc
    parts := filled.parts ++ [filled.splitter.packet] }

@[simp] theorem Turn.bypass_enc (turn : Turn) :
    (turn.bypass prim).enc = turn.enc.advance turn.rest.length := by
  simp [Turn.bypass, Turn.encrypt]

@[simp] theorem Turn.bypass_parts (turn : Turn) :
    (turn.bypass prim).parts =
      turn.parts ++ [turn.splitter.packet ++ turn.enc.mask prim.ks turn.rest] := by
  simp [Turn.bypass, Turn.encrypt]

/-- How many bytes of the rest a turn takes for the header. -/
def Turn.headerCount (turn : Turn) : Nat :=
  min (turn.splitter.requiredHeaderLen - turn.splitter.headerLen) turn.rest.length

section Equations

variable {prim} {turn : Turn}

/-- The second half of a turn, once a length is known. -/
theorem fillPacket_of_some {packetLen : Nat} (hknown : turn.splitter.packetLen = some packetLen) :
    fillPacket prim turn =
      if turn.splitter.packet.length ≤ packetLen then .ok (.again (turn.fill prim packetLen))
      else .error .underflow := by
  unfold fillPacket usizeSub
  by_cases hle : turn.splitter.packet.length ≤ packetLen
  · simp only [hknown, if_pos hle]
    unfold Turn.fill
    generalize hfilled : turn.encrypt prim
      (min (packetLen - turn.splitter.packet.length) turn.rest.length) = filled
    by_cases hfull : filled.splitter.packet.length = packetLen
    · simp only [if_pos hfull]
      rw [← hfilled] at hfull ⊢
      exact if_pos hfull
    · simp only [if_neg hfull]
      rw [← hfilled] at hfull ⊢
      exact if_neg hfull
  · simp only [hknown, if_neg hle]
    rfl

theorem fillPacket_of_none (hunknown : turn.splitter.packetLen = none) :
    fillPacket prim turn = .error .missingPacketLen := by
  unfold fillPacket
  rw [hunknown]

/-- The rest of the first half, once the header bytes are in the buffer. -/
theorem afterHeader_eq (required : Nat) :
    afterHeader prim width required turn =
      if turn.splitter.headerLen < required then .ok (.again turn)
      else match turn.splitter.parsedPacketLen width with
        | none => .ok (.again turn)
        | some packetLen =>
            if packetLen = 0 then .ok (.finished (turn.bypass prim))
            else fillPacket prim (turn.fix packetLen) := by
  unfold afterHeader Turn.bypass Turn.encrypt
  rw [List.take_length]
  rfl

/-- The first half of a turn faults if the header is longer than required. -/
theorem splitTurn_of_none (hunknown : turn.splitter.packetLen = none) :
    splitTurn prim width turn =
      if turn.splitter.headerLen ≤ turn.splitter.requiredHeaderLen then
        (copyIntoHeader turn.splitter.header turn.splitter.headerLen
          (turn.rest.take turn.headerCount)).bind fun header =>
            afterHeader prim width turn.splitter.requiredHeaderLen
              (turn.readHeader prim header turn.headerCount)
      else .error .underflow := by
  unfold splitTurn usizeSub
  split
  next hknown => cases hunknown.symm.trans hknown
  next =>
    by_cases hle : turn.splitter.headerLen ≤ turn.splitter.requiredHeaderLen
    · simp only [if_pos hle]
      rfl
    · simp only [if_neg hle]
      rfl

theorem splitTurn_of_some {packetLen : Nat} (hknown : turn.splitter.packetLen = some packetLen) :
    splitTurn prim width turn = fillPacket prim turn := by
  unfold splitTurn
  rw [hknown]

end Equations

/-- The rule of the loop. Where every turn with bytes left takes one and keeps the
invariant, or returns from the function, the loop comes to its end. -/
theorem splitLoop_returns (invariant : Turn → Prop) {ends : Turn → Prop}
    (hstop : ∀ turn, invariant turn → turn.rest = [] → ends turn)
    (hturn : ∀ turn, invariant turn → turn.rest ≠ [] →
      (∃ next, splitTurn prim width turn = .ok (.again next) ∧ invariant next ∧
        next.rest.length < turn.rest.length) ∨
      ∃ last, splitTurn prim width turn = .ok (.finished last) ∧ ends last)
    (fuel : Nat) {turn : Turn} (hinvariant : invariant turn) (hfuel : turn.rest.length ≤ fuel) :
    ∃ last, splitLoop prim width fuel turn = .ok last ∧ ends last := by
  induction fuel generalizing turn with
  | zero =>
      have hrest : turn.rest = [] := List.eq_nil_of_length_eq_zero (Nat.le_zero.mp hfuel)
      refine ⟨turn, ?_, hstop turn hinvariant hrest⟩
      rw [splitLoop, if_pos hrest]
  | succ fuel ih =>
      rw [splitLoop]
      by_cases hrest : turn.rest = []
      · rw [if_pos hrest]
        exact ⟨turn, rfl, hstop turn hinvariant hrest⟩
      · rw [if_neg hrest]
        rcases hturn turn hinvariant hrest with
          ⟨next, hnext, hkept, hshorter⟩ | ⟨last, hlast, hends⟩
        · rw [hnext]
          exact ih hkept (by omega)
        · rw [hlast]
          exact ⟨last, rfl, hends⟩

end Turns

end TgWsProxy.Splitter
