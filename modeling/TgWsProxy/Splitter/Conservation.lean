import TgWsProxy.Splitter.Turns

/-!
# The splitter conserves the byte stream

Cutting never adds, drops or reorders bytes: what a call returns, followed by
the packet still under assembly, is what was under assembly before followed by
the call's bytes, encrypted in place. The law is a step property of the loop
and needs no assumption about the header bytes.
-/

namespace TgWsProxy.Splitter

open Foundation.Keystream Foundation.Machine TgWsProxy.Crypto

variable (prim : Primitives) (width : PointerWidth)

/-- Everything a turn has emitted, is assembling, and has still to encrypt. -/
def Turn.content (turn : Turn) : Bytes :=
  turn.parts.flatten ++ turn.splitter.packet ++ turn.enc.mask prim.ks turn.rest

/-- The cipher once the rest of the call has gone through it. -/
def Turn.endCipher (turn : Turn) : AesCtr256 := turn.enc.advance turn.rest.length

/-- A turn keeps the content; it ends the call only with nothing left over. -/
inductive Conserved (turn : Turn) : Outcome → Prop
  | again {next : Turn} (hcontent : next.content prim = turn.content prim)
      (hcipher : next.endCipher = turn.endCipher) (henabled : next.splitter.disabled = false) :
      Conserved turn (.again next)
  | finished {last : Turn} (hcontent : last.content prim = turn.content prim)
      (hcipher : last.endCipher = turn.endCipher) (hrest : last.rest = [])
      (hpacket : last.splitter.packet = []) : Conserved turn (.finished last)

/-- Encrypting the first bytes of the rest moves them into the packet. -/
theorem Turn.content_encrypt (turn : Turn) (count : Nat) :
    (turn.encrypt prim count).content prim = turn.content prim ∧
      (turn.encrypt prim count).endCipher = turn.endCipher := by
  have hrest : turn.rest.take count ++ turn.rest.drop count = turn.rest :=
    List.take_append_drop count turn.rest
  constructor
  · simp only [Turn.content, Turn.encrypt, List.append_assoc]
    rw [← Cipher.mask_append, hrest]
  · simp only [Turn.endCipher, Turn.encrypt, Cipher.advance_advance]
    rw [← List.length_append, hrest]

/-- A finished packet moves from under assembly to the parts. -/
theorem Turn.content_emit (turn : Turn) : turn.emit.content prim = turn.content prim := by
  simp [Turn.content, Turn.emit]

theorem Turn.content_bypass (turn : Turn) :
    (turn.bypass prim).content prim = turn.content prim ∧
      (turn.bypass prim).endCipher = turn.endCipher := by
  have hrest : (turn.bypass prim).rest = [] := rfl
  have hpacket : (turn.bypass prim).splitter.packet = [] := rfl
  constructor
  · simp [Turn.content, hrest, hpacket]
  · simp [Turn.endCipher, hrest]

theorem Turn.fill_conserved (turn : Turn) (packetLen : Nat)
    (henabled : turn.splitter.disabled = false) :
    Conserved prim turn (.again (turn.fill prim packetLen)) := by
  obtain ⟨hcontent, hcipher⟩ := turn.content_encrypt prim
    (min (packetLen - turn.splitter.packet.length) turn.rest.length)
  simp only [Turn.fill]
  split
  next => exact .again ((Turn.content_emit prim _).trans hcontent) hcipher henabled
  next => exact .again hcontent hcipher henabled

/-- What is conserved after a change of the turn that conserves is conserved by both. -/
theorem Conserved.after {turn middle : Turn} {outcome : Outcome}
    (hconserved : Conserved prim middle outcome)
    (hcontent : middle.content prim = turn.content prim)
    (hcipher : middle.endCipher = turn.endCipher) : Conserved prim turn outcome := by
  cases hconserved with
  | again hnext hend henabled =>
      exact .again (hnext.trans hcontent) (hend.trans hcipher) henabled
  | finished hlast hend hrest hpacket =>
      exact .finished (hlast.trans hcontent) (hend.trans hcipher) hrest hpacket

theorem fillPacket_conserved {turn : Turn} {outcome : Outcome}
    (henabled : turn.splitter.disabled = false) (hfill : fillPacket prim turn = .ok outcome) :
    Conserved prim turn outcome := by
  cases hpacketLen : turn.splitter.packetLen with
  | none =>
      rw [fillPacket_of_none hpacketLen] at hfill
      cases hfill
  | some packetLen =>
      rw [fillPacket_of_some hpacketLen] at hfill
      split at hfill
      next =>
        cases hfill
        exact turn.fill_conserved prim packetLen henabled
      next => cases hfill

theorem afterHeader_conserved {required : Nat} {turn : Turn} {outcome : Outcome}
    (henabled : turn.splitter.disabled = false)
    (hafter : afterHeader prim width required turn = .ok outcome) :
    Conserved prim turn outcome := by
  rw [afterHeader_eq] at hafter
  split at hafter
  next =>
    cases hafter
    exact .again rfl rfl henabled
  next =>
    split at hafter
    next =>
      cases hafter
      exact .again rfl rfl henabled
    next packetLen _ =>
      split at hafter
      next =>
        cases hafter
        obtain ⟨hcontent, hcipher⟩ := turn.content_bypass prim
        exact .finished hcontent hcipher rfl rfl
      next =>
        have hfixed : (turn.fix packetLen).splitter.disabled = false := henabled
        exact (fillPacket_conserved prim hfixed hafter).after prim rfl rfl

theorem splitTurn_conserved {turn : Turn} {outcome : Outcome}
    (henabled : turn.splitter.disabled = false)
    (hturn : splitTurn prim width turn = .ok outcome) : Conserved prim turn outcome := by
  cases hpacketLen : turn.splitter.packetLen with
  | some packetLen =>
      rw [splitTurn_of_some width hpacketLen] at hturn
      exact fillPacket_conserved prim henabled hturn
  | none =>
      rw [splitTurn_of_none width hpacketLen] at hturn
      split at hturn
      next =>
        cases hcopy : copyIntoHeader turn.splitter.header turn.splitter.headerLen
            (turn.rest.take turn.headerCount) with
        | error fault =>
            rw [hcopy] at hturn
            cases hturn
        | ok header =>
            rw [hcopy] at hturn
            have hread : (turn.readHeader prim header turn.headerCount).splitter.disabled = false :=
              henabled
            obtain ⟨hcontent, hcipher⟩ := turn.content_encrypt prim turn.headerCount
            exact (afterHeader_conserved prim width hread hturn).after prim hcontent hcipher
      next => cases hturn

/-- A disabled splitter assembles nothing. -/
def MsgSplitter.Settled (splitter : MsgSplitter) : Prop :=
  splitter.disabled = true → splitter.packet = []

theorem splitLoop_conserved (fuel : Nat) {turn last : Turn}
    (henabled : turn.splitter.disabled = false)
    (hloop : splitLoop prim width fuel turn = .ok last) :
    last.content prim = turn.content prim ∧ last.endCipher = turn.endCipher ∧ last.rest = [] ∧
      last.splitter.Settled := by
  induction fuel generalizing turn with
  | zero =>
      unfold splitLoop at hloop
      split at hloop
      next hrest =>
        cases hloop
        exact ⟨rfl, rfl, hrest, fun hdisabled => by simp [henabled] at hdisabled⟩
      next => cases hloop
  | succ fuel ih =>
      unfold splitLoop at hloop
      split at hloop
      next hrest =>
        cases hloop
        exact ⟨rfl, rfl, hrest, fun hdisabled => by simp [henabled] at hdisabled⟩
      next =>
        cases hturn : splitTurn prim width turn with
        | error fault => simp [hturn, bind, Except.bind] at hloop
        | ok outcome =>
            simp only [hturn, bind, Except.bind, pure, Except.pure] at hloop
            cases splitTurn_conserved prim width henabled hturn with
            | again hcontent hcipher hnext =>
                obtain ⟨hlast, hend, hrest, hsettled⟩ := ih hnext hloop
                exact ⟨hlast.trans hcontent, hend.trans hcipher, hrest, hsettled⟩
            | finished hcontent hcipher hrest hpacket =>
                cases hloop
                exact ⟨hcontent, hcipher, hrest, fun _ => hpacket⟩

/-- One call, whatever the header bytes are: the parts returned and the packet
under assembly are exactly the encrypted bytes, in order. -/
theorem MsgSplitter.splitAndEncrypt_conserved {splitter splitter' : MsgSplitter}
    {plaintext : Bytes} {enc enc' : AesCtr256} {parts : List Bytes} (hsettled : splitter.Settled)
    (hcall : splitter.splitAndEncrypt prim width plaintext enc = .ok (parts, splitter', enc')) :
    parts.flatten ++ splitter'.packet = splitter.packet ++ enc.mask prim.ks plaintext ∧
      enc' = enc.advance plaintext.length ∧ splitter'.Settled := by
  unfold MsgSplitter.splitAndEncrypt at hcall
  split at hcall
  next hempty =>
    cases hcall
    simp [hempty, hsettled]
  next =>
    by_cases hdisabled : splitter.disabled = true
    · rw [if_pos hdisabled] at hcall
      cases hcall
      simp [hsettled hdisabled, hsettled]
    · rw [if_neg hdisabled] at hcall
      cases hloop : splitLoop prim width plaintext.length ⟨splitter, plaintext, enc, []⟩ with
      | error fault => simp [hloop, bind, Except.bind] at hcall
      | ok last =>
          simp only [hloop, bind, Except.bind, pure, Except.pure] at hcall
          cases hcall
          obtain ⟨hcontent, hcipher, hrest, hlast⟩ := splitLoop_conserved prim width
            plaintext.length (by simpa using hdisabled) hloop
          refine ⟨?_, ?_, hlast⟩
          · simpa [Turn.content, hrest] using hcontent
          · simpa [Turn.endCipher, hrest] using hcipher

end TgWsProxy.Splitter
