import TgWsProxy.Splitter.Refinement

/-!
# Chunking independence

From one turn of the loop to one call, and from one call to any sequence of
calls: whatever the partition of the stream, each call returns exactly the
packets whose last byte it supplied, and the flush returns the unfinished tail.
-/

namespace TgWsProxy.Splitter

open Foundation.Keystream Foundation.Machine TgWsProxy.Crypto

variable {prim : Primitives} (width : PointerWidth) {proto : ProtoTag} {origin : AesCtr256}
  {whole : Bytes}

/-- A packet is due in the call on `lo..hi` exactly when it is done at the end of
the call and was not at its beginning. -/
theorem filter_due {done later : List Span} (lo : Nat) {hi : Nat}
    (hdone : ∀ span ∈ done, span.stop ≤ hi) (hlater : ∀ span ∈ later, hi < span.stop) :
    ((done ++ later).filter fun span => lo < span.stop ∧ span.stop ≤ hi) =
      done.filter fun span => lo < span.stop := by
  have hnone : (later.filter fun span => lo < span.stop ∧ span.stop ≤ hi) = [] := by
    rw [List.filter_eq_nil_iff]
    intro span hspan
    have := hlater span hspan
    simp
    omega
  rw [List.filter_append, hnone, List.append_nil]
  apply List.filter_congr
  intro span hspan
  have := hdone span hspan
  simp [this]

/-- The first half of a turn copies at least one byte into the header buffer and
never reads past the header that the bytes so far announce. -/
theorem splitTurn_readHeader {lo hi : Nat} {done : List Span} {start pos : Nat} {turn : Turn}
    (hloop : Looping prim proto origin whole lo hi done start pos turn) (hmore : pos < hi)
    (hunknown : turn.splitter.packetLen = none) :
    ∃ next header, pos < next ∧ next ≤ hi ∧
      next - start ≤ headerLenAt proto (whole.extract start pos) ∧
      header.toList.take (next - start) = whole.extract start next ∧
      splitTurn prim width turn =
        afterHeader prim width (headerLenAt proto (whole.extract start pos))
          { splitter :=
              { turn.splitter with
                header
                headerLen := next - start
                packet := (origin.mask prim.ks whole).extract start next }
            rest := whole.extract next hi
            enc := origin.advance next
            parts := turn.parts } := by
  have hasm := hloop.assembling
  have hstart := hasm.start_le
  have hhi := hloop.hi_le
  have hpendingLength : (whole.extract start pos).length = pos - start :=
    extract_length hasm.pos_le
  have hremembers := hasm.remembers
  simp only [MsgSplitter.Remembers, hunknown, hasm.same_proto] at hremembers
  obtain ⟨hholds, hnone⟩ := hremembers
  have hrequired := MsgSplitter.requiredHeaderLen_eq hholds
  rw [hasm.same_proto] at hrequired
  have hshort := (frameAt_eq_none_iff _ _).mp hnone
  have hfour := headerLenAt_le proto (whole.extract start pos)
  have hheaderLen : turn.splitter.headerLen = pos - start := by rw [hholds.length, hpendingLength]
  have hrest := hloop.length_rest
  generalize hneeded : headerLenAt proto (whole.extract start pos) = needed at *
  obtain ⟨next, hmin, hforward, hwithin⟩ : ∃ next,
      min (needed - (pos - start)) (hi - pos) = next - pos ∧ pos < next ∧
        (next ≤ start + needed ∧ next ≤ hi) :=
    ⟨min (start + needed) hi, by omega⟩
  have hcount : turn.headerCount = next - pos := by
    rw [Turn.headerCount, hrequired, hheaderLen, hrest, hmin]
  clear hmin
  have hchunk : turn.rest.take (next - pos) = whole.extract pos next := by
    rw [hloop.rest, extract_take (by omega), Nat.add_sub_cancel' (by omega)]
  have hchunkLength : (whole.extract pos next).length = next - pos := extract_length (by omega)
  obtain ⟨header, hcopy, hheader⟩ := copyIntoHeader_eq (whole.extract pos next) hholds (by omega)
  rw [extract_append_extract whole hstart (by omega), extract_length (by omega)] at hheader
  refine ⟨next, header, by omega, by omega, by omega, hheader, ?_⟩
  rw [splitTurn_of_none width hunknown, if_pos (by omega), hcount, hchunk, hcopy, hrequired]
  change afterHeader prim width needed (turn.readHeader prim header (next - pos)) = _
  unfold Turn.readHeader
  rw [hloop.encrypt_eq (show pos ≤ next by omega) (by omega), hheaderLen,
    show pos - start + (next - pos) = next - start by omega]

/-- The turn that completes the header of an empty packet returns the rest of the
call in one part and gives up on the framing. -/
theorem bypassed_of_emptyPacket {lo hi : Nat} {done : List Span} {start pos : Nat} {turn : Turn}
    (hloop : Looping prim proto origin whole lo hi done start pos turn) (hmore : pos < hi)
    (hunknown : frameAt proto (whole.extract start pos) = none) {next : Nat} (hnext : next ≤ hi)
    (hpos : pos ≤ next) {frame : Frame}
    (hframe : frameAt proto (whole.extract start next) = some frame)
    (hempty : frame.payloadLen = 0) (splitter : MsgSplitter)
    (hdisabled : splitter.disabled = true) (hpacket : splitter.packet = []) :
    Bypassed proto origin whole hi splitter (origin.advance hi) ∧
      turn.parts ++ [(origin.mask prim.ks whole).extract start hi] =
        (layout proto whole).expectedParts (origin.mask prim.ks whole) lo hi := by
  have hasm := hloop.assembling
  have hstart := hasm.start_le
  have hhi := hloop.hi_le
  have hlo := hloop.lo_le
  have hheader := (frameAt_take hframe).2.1
  rw [extract_length (by omega)] at hheader
  have hwholeFrame := frameAt_drop (show start ≤ next by omega) hframe
  have hlayout := layoutFrom_of_frame start hwholeFrame
  rw [if_pos hempty] at hlayout
  have hpackets := hasm.packets
  have hending := hasm.ending
  rw [hlayout, List.append_nil] at hpackets
  rw [hlayout] at hending
  have hdone : ∀ span ∈ done, span.stop ≤ hi := fun span hspan =>
    (hasm.done_le span hspan).trans hloop.pos_le
  refine ⟨⟨hdisabled, hpacket, rfl, ?_, start, start + frame.headerLen, hending, by omega⟩, ?_⟩
  · rw [hpackets]
    exact hdone
  · have hlate : lo < start + frame.headerLen := by
      rw [drop_eq_extract_append hstart] at hwholeFrame
      have := length_lt_headerLen hunknown hwholeFrame
      rw [extract_length hasm.pos_le] at this
      omega
    have hdue := filter_due lo hdone (List.forall_mem_nil fun span : Span => hi < span.stop)
    rw [List.append_nil] at hdue
    have hnow : ¬ (hi < start + frame.headerLen ∨ lo = hi) := by omega
    simp only [Layout.expectedParts, hpackets, hending, hdue, hloop.parts, if_neg hnow,
      if_pos hlate]

/-- In the middle of a turn: the header bytes up to `next` have been copied into
`read`, and none behind the header that the bytes before announced. -/
structure HeaderRead (prim : Primitives) (proto : ProtoTag) (origin : AesCtr256) (whole : Bytes)
    (hi start pos next : Nat) (before read : MsgSplitter) : Prop where
  pos_lt : pos < next
  next_le : next ≤ hi
  within : next - start ≤ headerLenAt proto (whole.extract start pos)
  same_proto : read.proto = before.proto
  same_disabled : read.disabled = before.disabled
  packetLen : read.packetLen = none
  packet : read.packet = (origin.mask prim.ks whole).extract start next
  holds : read.HeaderHolds (whole.extract start next)

section AfterHeader

variable {lo hi : Nat} {done : List Span} {start pos next : Nat} {turn : Turn} {read : MsgSplitter}

/-- The loop goes on behind the header bytes, with the length as it is known now. -/
theorem HeaderRead.looping
    (hread : HeaderRead prim proto origin whole hi start pos next turn.splitter read)
    (hloop : Looping prim proto origin whole lo hi done start pos turn) (packetLen : Option Nat)
    (hremembers : { read with packetLen }.Remembers (whole.extract start next)) :
    Looping prim proto origin whole lo hi done start next
      ⟨{ read with packetLen }, whole.extract next hi, origin.advance next, turn.parts⟩ where
  assembling := hloop.assembling.extend hread.pos_lt.le (hread.next_le.trans hloop.hi_le)
    hread.same_proto hread.same_disabled hread.packet hremembers
  lo_le := hloop.lo_le.trans hread.pos_lt.le
  pos_le := hread.next_le
  hi_le := hloop.hi_le
  rest := rfl
  parts := hloop.parts

/-- A complete header has been read to its last byte and no further. -/
theorem HeaderRead.complete
    (hread : HeaderRead prim proto origin whole hi start pos next turn.splitter read)
    (hloop : Looping prim proto origin whole lo hi done start pos turn) {frame : Frame}
    (hframe : frameAt proto (whole.extract start next) = some frame) :
    frame.headerLen = next - start ∧
      ¬ read.headerLen < headerLenAt proto (whole.extract start pos) := by
  have hstart := hloop.assembling.start_le
  have hnext := hread.next_le
  have hwithin := hread.within
  have hlength : (whole.extract start next).length = next - start :=
    extract_length (hnext.trans hloop.hi_le)
  have hcomplete := (frameAt_take hframe).2.1
  have hheaderLen := Frame.headerLen_eq hframe
  -- More bytes never shorten the header that they announce.
  have hannounced := headerLenAt_append proto (whole.extract start pos) (whole.extract pos next)
  rw [extract_append_extract whole hstart hread.pos_lt.le] at hannounced
  rw [hread.holds.length]
  omega

/-- The second half of a turn while the header is incomplete: both the length
test and the parse of the source send the loop round again. -/
theorem afterHeader_incomplete
    (hread : HeaderRead prim proto origin whole hi start pos next turn.splitter read)
    (hloop : Looping prim proto origin whole lo hi done start pos turn)
    (hframe : frameAt proto (whole.extract start next) = none) :
    ∃ again, afterHeader prim width (headerLenAt proto (whole.extract start pos))
        ⟨read, whole.extract next hi, origin.advance next, turn.parts⟩ = .ok (.again again) ∧
      Looping prim proto origin whole lo hi done start next again := by
  have htag : read.proto = proto := hread.same_proto.trans hloop.assembling.same_proto
  have hparsed := MsgSplitter.parsedPacketLen_eq width hread.holds
  rw [htag, hframe] at hparsed
  have hunset : { read with packetLen := none } = read := by rw [← hread.packetLen]
  have hlooping := hread.looping hloop none ⟨⟨hread.holds.length, hread.holds.bytes⟩, by
    rw [htag]
    exact hframe⟩
  rw [hunset] at hlooping
  refine ⟨_, ?_, hlooping⟩
  rw [afterHeader_eq, hparsed]
  split <;> rfl

/-- The second half of a turn that completes the header of an empty packet. -/
theorem afterHeader_empty
    (hread : HeaderRead prim proto origin whole hi start pos next turn.splitter read)
    (hloop : Looping prim proto origin whole lo hi done start pos turn) (hmore : pos < hi)
    (hunknown : frameAt proto (whole.extract start pos) = none) {frame : Frame}
    (hframe : frameAt proto (whole.extract start next) = some frame)
    (hempty : frame.payloadLen = 0) :
    ∃ last, afterHeader prim width (headerLenAt proto (whole.extract start pos))
        ⟨read, whole.extract next hi, origin.advance next, turn.parts⟩ = .ok (.finished last) ∧
      Bypassed proto origin whole hi last.splitter last.enc ∧
      last.parts = (layout proto whole).expectedParts (origin.mask prim.ks whole) lo hi := by
  have hpos := hread.pos_lt.le
  have hnext := hread.next_le
  have hstart := hloop.assembling.start_le
  have hparsed := MsgSplitter.parsedPacketLen_eq width hread.holds
  rw [hread.same_proto.trans hloop.assembling.same_proto, hframe] at hparsed
  obtain ⟨_, henough⟩ := hread.complete hloop hframe
  obtain ⟨hbypassed, hparts⟩ := bypassed_of_emptyPacket hloop hmore hunknown hnext hpos
    hframe hempty { read with packet := [], disabled := true, headerLen := 0 } rfl rfl
  have hrest : (whole.extract next hi).length = hi - next := extract_length hloop.hi_le
  have htotal : next + (hi - next) = hi := by omega
  rw [afterHeader_eq, if_neg henough, hparsed]
  refine ⟨_, if_pos (if_pos hempty), ?_, ?_⟩
  · rw [Turn.bypass_enc, hrest, Cipher.advance_advance, htotal]
    exact hbypassed
  · rw [Turn.bypass_parts, hread.packet, ← Cipher.mask_extract,
      extract_append_extract _ (by omega) hnext, hparts]

/-- The second half of a turn that completes any other header goes on to fill the
packet. -/
theorem afterHeader_fill
    (hread : HeaderRead prim proto origin whole hi start pos next turn.splitter read)
    (hloop : Looping prim proto origin whole lo hi done start pos turn) {frame : Frame}
    (hframe : frameAt proto (whole.extract start next) = some frame)
    (hpayload : frame.payloadLen ≠ 0) :
    ∃ again done' start' pos', afterHeader prim width (headerLenAt proto (whole.extract start pos))
        ⟨read, whole.extract next hi, origin.advance next, turn.parts⟩ = .ok (.again again) ∧
      Looping prim proto origin whole lo hi done' start' pos' again ∧ next ≤ pos' := by
  have htag : read.proto = proto := hread.same_proto.trans hloop.assembling.same_proto
  have hparsed := MsgSplitter.parsedPacketLen_eq width hread.holds
  rw [htag, hframe] at hparsed
  obtain ⟨hfull, henough⟩ := hread.complete hloop hframe
  have hlength : (whole.extract start next).length = next - start :=
    extract_length (hread.next_le.trans hloop.hi_le)
  have hlen : frame.len ≠ 0 := (Frame.len_pos hframe).ne'
  have hknown := hread.looping hloop (some frame.len) (by
    refine ⟨frame, ?_, hpayload, rfl, ?_⟩
    · rw [← hframe, ← htag]
    · rw [hlength, ← hfull, Frame.len]
      omega)
  obtain ⟨again, done', start', pos', hfill, hagain, hle, _⟩ := fillPacket_looping hknown rfl
  refine ⟨again, done', start', pos', ?_, hagain, hle⟩
  rw [afterHeader_eq, if_neg henough, hparsed]
  simp only [Option.map_some, Frame.storedLen, if_neg hpayload, if_neg hlen]
  exact hfill

end AfterHeader

/-- One turn: the loop goes on further along the layout, or it has met the first
empty packet and the call is over. -/
theorem splitTurn_looping {lo hi : Nat} {done : List Span} {start pos : Nat} {turn : Turn}
    (hloop : Looping prim proto origin whole lo hi done start pos turn) (hmore : pos < hi) :
    (∃ next done' start' pos', splitTurn prim width turn = .ok (.again next) ∧
      Looping prim proto origin whole lo hi done' start' pos' next ∧ pos < pos') ∨
    (∃ last, splitTurn prim width turn = .ok (.finished last) ∧
      Bypassed proto origin whole hi last.splitter last.enc ∧
      last.parts = (layout proto whole).expectedParts (origin.mask prim.ks whole) lo hi) := by
  have hasm := hloop.assembling
  have hhi := hloop.hi_le
  cases hpacketLen : turn.splitter.packetLen with
  | some packetLen =>
      left
      obtain ⟨next, done', start', pos', hfill, hnext, _, hprogress⟩ :=
        fillPacket_looping hloop hpacketLen
      exact ⟨next, done', start', pos', (splitTurn_of_some width hpacketLen).trans hfill, hnext,
        hprogress hmore⟩
  | none =>
      have hremembers := hasm.remembers
      simp only [MsgSplitter.Remembers, hpacketLen, hasm.same_proto] at hremembers
      obtain ⟨_, hunknown⟩ := hremembers
      obtain ⟨next, header, hpos, hnext, hwithin, hheader, hturn⟩ :=
        splitTurn_readHeader width hloop hmore hpacketLen
      have hlength : (whole.extract start next).length = next - start := extract_length (by omega)
      have hread : HeaderRead prim proto origin whole hi start pos next turn.splitter
          { turn.splitter with
            header
            headerLen := next - start
            packet := (origin.mask prim.ks whole).extract start next } :=
        ⟨hpos, hnext, hwithin, rfl, rfl, hpacketLen, rfl, hlength.symm, by
          rw [hlength]
          exact hheader⟩
      rw [hturn]
      cases hframe : frameAt proto (whole.extract start next) with
      | none =>
          obtain ⟨again, hagain, hlooping⟩ := afterHeader_incomplete width hread hloop hframe
          exact .inl ⟨again, done, start, next, hagain, hlooping, hpos⟩
      | some frame =>
          by_cases hempty : frame.payloadLen = 0
          · exact .inr (afterHeader_empty width hread hloop hmore hunknown hframe hempty)
          · obtain ⟨again, done', start', pos', hagain, hlooping, hle⟩ :=
              afterHeader_fill width hread hloop hframe hempty
            exact .inl ⟨again, done', start', pos', hagain, hlooping, hpos.trans_le hle⟩

/-- After `pos` bytes of the stream the splitter is either assembling a packet or
passing everything through. -/
def Tracks (prim : Primitives) (proto : ProtoTag) (origin : AesCtr256) (whole : Bytes) (pos : Nat)
    (splitter : MsgSplitter) (enc : AesCtr256) : Prop :=
  (∃ done start, Assembling prim proto origin whole done start pos splitter enc) ∨
    Bypassed proto origin whole pos splitter enc

/-- At the end of a call that met no empty packet, exactly the packets completed
during the call have been collected. -/
theorem Looping.parts_eq {lo hi : Nat} {done : List Span} {start : Nat} {turn : Turn}
    (hloop : Looping prim proto origin whole lo hi done start hi turn) :
    turn.parts = (layout proto whole).expectedParts (origin.mask prim.ks whole) lo hi := by
  have hasm := hloop.assembling
  have hbeyond := hasm.beyond
  have hdue := filter_due lo hasm.done_le hbeyond.packets
  rw [← hasm.packets] at hdue
  unfold Layout.expectedParts
  rw [hdue, hloop.parts, hasm.ending]
  cases hending : (layoutFrom proto start (whole.drop start)).ending with
  | tail _ => simp
  | emptyPacket first headerStop => simp [hbeyond.ending first headerStop hending]

/-- The loop of one call. -/
theorem splitLoop_looping (fuel : Nat) {lo hi : Nat} {done : List Span} {start pos : Nat}
    {turn : Turn} (hloop : Looping prim proto origin whole lo hi done start pos turn)
    (hfuel : hi - pos ≤ fuel) :
    ∃ last, splitLoop prim width fuel turn = .ok last ∧
      last.parts = (layout proto whole).expectedParts (origin.mask prim.ks whole) lo hi ∧
      Tracks prim proto origin whole hi last.splitter last.enc := by
  rw [← hloop.length_rest] at hfuel
  refine splitLoop_returns prim width
    (fun turn => ∃ done start pos, Looping prim proto origin whole lo hi done start pos turn)
    ?_ ?_ fuel ⟨done, start, pos, hloop⟩ hfuel
  · rintro turn ⟨done, start, pos, hloop⟩ hrest
    have hlength := hloop.length_rest
    rw [hrest, List.length_nil] at hlength
    obtain rfl : pos = hi := Nat.le_antisymm hloop.pos_le (Nat.le_of_sub_eq_zero hlength.symm)
    exact ⟨hloop.parts_eq, .inl ⟨done, start, hloop.assembling⟩⟩
  · rintro turn ⟨done, start, pos, hloop⟩ hrest
    have hlength := hloop.length_rest
    have hpos := List.length_pos_of_ne_nil hrest
    rcases splitTurn_looping width hloop (by omega) with
      ⟨next, done', start', pos', hturn, hnext, hprogress⟩ | ⟨last, hturn, hbypassed, hparts⟩
    · left
      refine ⟨next, hturn, ⟨done', start', pos', hnext⟩, ?_⟩
      have hshorter := hnext.length_rest
      omega
    · exact .inr ⟨last, hturn, hparts, .inr hbypassed⟩

theorem expectedParts_self (layout : Layout) (ciphertext : Bytes) (pos : Nat) :
    layout.expectedParts ciphertext pos pos = [] := by
  have hnone : (layout.packets.filter fun span => pos < span.stop ∧ span.stop ≤ pos) = [] := by
    rw [List.filter_eq_nil_iff]
    intro span _
    simp
  unfold Layout.expectedParts
  rw [hnone]
  cases layout.ending <;> simp [slices]

theorem Bypassed.expectedParts_eq {lo hi : Nat} {splitter : MsgSplitter} {enc : AesCtr256}
    (hbypassed : Bypassed proto origin whole lo splitter enc) (hlt : lo < hi) :
    (layout proto whole).expectedParts (origin.mask prim.ks whole) lo hi =
      [(origin.mask prim.ks whole).extract lo hi] := by
  have hnone : ((layout proto whole).packets.filter
      fun span => lo < span.stop ∧ span.stop ≤ hi) = [] := by
    rw [List.filter_eq_nil_iff]
    intro span hspan
    have := hbypassed.packets_le span hspan
    simp
    omega
  obtain ⟨start, headerStop, hending, hpassed⟩ := hbypassed.ending
  unfold Layout.expectedParts
  rw [hnone, hending]
  have hnow : ¬ (hi < headerStop ∨ lo = hi) := by omega
  have hlate : ¬ lo < headerStop := by omega
  simp only [slices, List.map_nil, List.nil_append, if_neg hnow, if_neg hlate]

/-- One call on the bytes `lo..hi` of the stream. -/
theorem splitAndEncrypt_tracks {lo hi : Nat} {splitter : MsgSplitter} {enc : AesCtr256}
    (htracks : Tracks prim proto origin whole lo splitter enc) (hlo : lo ≤ hi)
    (hhi : hi ≤ whole.length) :
    ∃ splitter' enc', splitter.splitAndEncrypt prim width (whole.extract lo hi) enc =
        .ok ((layout proto whole).expectedParts (origin.mask prim.ks whole) lo hi,
          splitter', enc') ∧
      Tracks prim proto origin whole hi splitter' enc' := by
  have hlength : (whole.extract lo hi).length = hi - lo := extract_length hhi
  unfold MsgSplitter.splitAndEncrypt
  rcases Nat.eq_or_lt_of_le hlo with rfl | hlt
  · have hempty : whole.extract lo lo = [] := List.eq_nil_of_length_eq_zero (by omega)
    refine ⟨splitter, enc, ?_, htracks⟩
    rw [if_pos hempty, expectedParts_self]
  · have hnonempty : whole.extract lo hi ≠ [] := by
      intro hempty
      rw [hempty, List.length_nil] at hlength
      omega
    rw [if_neg hnonempty]
    rcases htracks with ⟨done, start, hasm⟩ | hbypassed
    · have hnone : (done.filter fun span => lo < span.stop) = [] := by
        rw [List.filter_eq_nil_iff]
        intro span hspan
        simpa using hasm.done_le span hspan
      have hloop : Looping prim proto origin whole lo hi done start lo
          ⟨splitter, whole.extract lo hi, enc, []⟩ :=
        ⟨hasm, Nat.le_refl lo, hlo, hhi, rfl, by rw [hnone]; rfl⟩
      obtain ⟨last, hlast, hparts, htracks⟩ :=
        splitLoop_looping width (whole.extract lo hi).length hloop (by omega)
      refine ⟨last.splitter, last.enc, ?_, htracks⟩
      simp only [hasm.enabled, Bool.false_eq_true, if_false, hlast, hparts, bind, Except.bind, pure,
        Except.pure]
    · refine ⟨splitter, origin.advance hi, ?_, Or.inr ?_⟩
      · rw [if_pos hbypassed.disabled, hbypassed.expectedParts_eq hlt, Cipher.mask_extract,
          ← hbypassed.cipher]
        simp only [Cipher.applyKeystream, hlength]
        rw [hbypassed.cipher, Cipher.advance_advance, Nat.add_sub_cancel' hlo]
      · obtain ⟨start, headerStop, hending, hpassed⟩ := hbypassed.ending
        exact ⟨hbypassed.disabled, hbypassed.packet, rfl,
          fun span hspan => (hbypassed.packets_le span hspan).trans hlo,
          start, headerStop, hending, hpassed.trans hlo⟩

/-- Any number of calls, by induction on the chunks still to come. -/
theorem splitAll_tracks (chunks : List Bytes) {lo : Nat} {splitter : MsgSplitter}
    {enc : AesCtr256} (htracks : Tracks prim proto origin whole lo splitter enc)
    (hlo : lo ≤ whole.length) (hchunks : whole.drop lo = chunks.flatten) :
    ∃ splitter' enc', splitter.splitAll prim width enc chunks =
        .ok ((layout proto whole).expectedCalls (origin.mask prim.ks whole) lo chunks,
          splitter', enc') ∧
      Tracks prim proto origin whole whole.length splitter' enc' := by
  induction chunks generalizing lo splitter enc with
  | nil =>
      have hend : lo = whole.length := by
        have := congrArg List.length hchunks
        simp only [List.length_drop, List.flatten_nil, List.length_nil] at this
        omega
      exact ⟨splitter, enc, rfl, hend ▸ htracks⟩
  | cons chunk chunks ih =>
      obtain ⟨hwithin, hchunk, hrest⟩ := extract_of_drop_eq hlo hchunks
      obtain ⟨splitter₁, enc₁, hcall, htracks₁⟩ := splitAndEncrypt_tracks width
        htracks (Nat.le_add_right lo chunk.length) hwithin
      obtain ⟨splitter₂, enc₂, hlater, htracks₂⟩ := ih htracks₁ hwithin hrest
      refine ⟨splitter₂, enc₂, ?_, htracks₂⟩
      rw [hchunk] at hcall
      simp [MsgSplitter.splitAll, hcall, hlater, Layout.expectedCalls, bind, Except.bind, pure,
        Except.pure]

theorem new_tracks : Tracks prim proto origin whole 0 (MsgSplitter.new proto) origin := by
  refine Or.inl ⟨[], 0, ?_⟩
  refine ⟨rfl, rfl, Nat.le_refl 0, Nat.zero_le _, rfl, ?_, ?_, rfl, rfl, by simp⟩
  · simp [MsgSplitter.new, List.extract_eq_take_drop]
  · refine ⟨⟨rfl, rfl⟩, ?_⟩
    cases proto <;> rfl

/-- At the end of the stream the packet under assembly is the layout's tail. -/
theorem Tracks.flush_eq {splitter : MsgSplitter} {enc : AesCtr256}
    (htracks : Tracks prim proto origin whole whole.length splitter enc) :
    splitter.flush.1 = (layout proto whole).expectedFlush (origin.mask prim.ks whole) := by
  rcases htracks with ⟨done, start, hasm⟩ | hbypassed
  · have hstart := hasm.start_le
    have htail : (layoutFrom proto start (whole.drop start)).ending = .tail start := by
      cases hframe : frameAt proto (whole.drop start) with
      | none => rw [layoutFrom_headerless start hframe]
      | some frame =>
          have hbeyond := hasm.frame_beyond hframe
          have hheader := (frameAt_take hframe).2.1
          rw [List.length_drop] at hheader
          rw [layoutFrom_of_frame start hframe, if_neg (by omega),
            if_pos (by rw [List.length_drop]; omega)]
    have hpacket : splitter.packet = (origin.mask prim.ks whole).drop start := by
      rw [hasm.packet, List.extract_eq_take_drop]
      exact List.take_of_length_le (by simp)
    unfold MsgSplitter.flush Layout.expectedFlush
    rw [hasm.ending, htail, hpacket]
    by_cases hempty : start = whole.length
    · simp [hempty]
    · have hlt : start < whole.length := by omega
      simp [hlt, Nat.not_le.mpr hlt]
  · obtain ⟨start, headerStop, hending, _⟩ := hbypassed.ending
    unfold MsgSplitter.flush Layout.expectedFlush
    rw [hbypassed.packet, hending]
    rfl

theorem flush_flush (splitter : MsgSplitter) : splitter.flush.2.flush.1 = [] := by
  unfold MsgSplitter.flush
  split
  next => simp_all
  next => simp

/-- Packet alignment for every partition of every stream: no call fails, each
call returns the ciphertexts of the packets that it completes, from the first
empty packet on it returns everything, and the first flush returns the
unfinished tail, the second nothing. -/
theorem splitAll_follows_layout (prim : Primitives) (width : PointerWidth) (proto : ProtoTag)
    (enc : AesCtr256) (chunks : List Bytes) :
    ∃ splitter enc',
      (MsgSplitter.new proto).splitAll prim width enc chunks =
        .ok ((layout proto chunks.flatten).expectedCalls (enc.mask prim.ks chunks.flatten) 0 chunks,
          splitter, enc') ∧
      splitter.flush.1 =
        (layout proto chunks.flatten).expectedFlush (enc.mask prim.ks chunks.flatten) ∧
      splitter.flush.2.flush.1 = [] := by
  have hnew : Tracks prim proto enc chunks.flatten 0 (MsgSplitter.new proto) enc := new_tracks
  obtain ⟨splitter, enc', hcalls, htracks⟩ := splitAll_tracks width chunks hnew (Nat.zero_le _) rfl
  exact ⟨splitter, enc', hcalls, htracks.flush_eq, flush_flush splitter⟩

end TgWsProxy.Splitter
