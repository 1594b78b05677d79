import TgWsProxy.Client.Model
import TgWsProxy.FakeTls.Framing

/-!
# Reassembling an inbound FakeTLS stream

After an accepted hello the client's stream comes in ApplicationData records, cut
anywhere. The first 64 bytes are collected by one loop, what is left of its last
record is kept as an offset into that record, and later records go through
`read_tls_appdata`. Together the three return the stream as it was sent.
-/

namespace TgWsProxy.Client

open Foundation.Effect Foundation.Machine Foundation.Stream
open TgWsProxy.Crypto TgWsProxy.FakeTls
open Foundation.Effect.Program (Runs)

/-- The longest payload of a record that the listener reads. -/
abbrev maxInboundPayload : Nat := tlsMaxRecordPayload + tlsReadHeadroom

/-! ## Pending data -/

namespace PendingData

def remaining (pending : PendingData) : Bytes := pending.data.drop pending.offset

theorem read_of_remaining_eq_nil {pending : PendingData} (bufLen : Nat)
    (hremaining : pending.remaining = []) : pending.read bufLen = (none, pending) := by
  unfold read
  split
  next => rfl
  next => exact if_pos hremaining

theorem read_of_remaining_ne_nil {pending : PendingData} (bufLen : Nat)
    (hremaining : pending.remaining ≠ []) :
    (pending.read bufLen).1 = some (pending.remaining.take bufLen) ∧
      (pending.read bufLen).2.remaining = pending.remaining.drop bufLen := by
  have hoffset : pending.offset < pending.data.length := by
    by_contra hle
    exact hremaining (List.drop_eq_nil_of_le (Nat.not_lt.mp hle))
  have hlength : pending.remaining.length = pending.data.length - pending.offset :=
    List.length_drop
  have hread : pending.read bufLen =
      (some (pending.remaining.take (min bufLen pending.remaining.length)),
        if pending.offset + min bufLen pending.remaining.length = pending.data.length then {}
        else { pending with offset := pending.offset + min bufLen pending.remaining.length }) := by
    unfold read
    rw [if_neg (by omega)]
    exact if_neg hremaining
  rw [hread]
  refine ⟨?_, ?_⟩
  · rw [← List.take_take, List.take_length]
  · by_cases hdrained : pending.offset + min bufLen pending.remaining.length = pending.data.length
    · rw [if_pos hdrained]
      exact (List.drop_eq_nil_of_le (by omega)).symm
    · rw [if_neg hdrained, Nat.min_eq_left (by omega)]
      exact (List.drop_drop).symm

theorem remaining_fromRecord (record : Record) (count : Nat) :
    (fromRecord record.encode (5 + count)).remaining = record.payload.drop count := by
  change (record.header ++ record.payload).drop (5 + count) = _
  rw [List.drop_append, Record.header_length, List.drop_eq_nil_of_le (by simp)]
  simp

end PendingData

/-! ## The reader -/

namespace ClientReader

/-- What the reader has still to return. -/
def Holds : ClientReader → Bytes → Prop
  | .plain reader, bytes => reader.elements = bytes
  | .fakeTls reader pending, bytes =>
      ∃ later, bytes = pending.remaining ++ later ∧ Carries maxInboundPayload reader later

/-- A buffer that takes a whole record, or any buffer while pending data remains. -/
def Fits : ClientReader → Nat → Prop
  | .plain _, size => 0 < size
  | .fakeTls _ pending, size =>
      maxInboundPayload ≤ size ∨ 0 < size ∧ pending.remaining ≠ []

theorem read_delivers : Delivers read Fits Holds := by
  intro reader size bytes hholds hfits
  cases reader with
  | plain reader =>
      obtain rfl := hholds
      obtain ⟨hsplit, hempty⟩ := @Source.elements_of_read _ size reader hfits
      exact ⟨_, hsplit, rfl, hempty⟩
  | fakeTls reader pending =>
      obtain ⟨later, rfl, hlater⟩ := hholds
      by_cases hremaining : pending.remaining = []
      · have hsize : maxInboundPayload ≤ size := by
          rcases hfits with hlarge | ⟨-, hpending⟩
          · exact hlarge
          · exact absurd hremaining hpending
        obtain ⟨rest, hsplit, hrest, hempty⟩ :=
          readTlsAppdata_delivers maxInboundPayload reader size later hlater hsize
        have hread : read size (.fakeTls reader pending) =
            ((readTlsAppdata size reader).1, .fakeTls (readTlsAppdata size reader).2 pending) := by
          simp only [read, PendingData.read_of_remaining_eq_nil size hremaining]
        rw [hread, hremaining, List.nil_append]
        refine ⟨rest, hsplit, ⟨rest, ?_, hrest⟩, hempty⟩
        rw [hremaining, List.nil_append]
      · obtain ⟨hpending, hafter⟩ := PendingData.read_of_remaining_ne_nil size hremaining
        have hpos : 0 < size := by
          rcases hfits with hlarge | ⟨hpos, -⟩
          · exact Nat.lt_of_lt_of_le (by decide) hlarge
          · exact hpos
        have hread : read size (.fakeTls reader pending) =
            (pending.remaining.take size, .fakeTls reader (pending.read size).2) := by
          rw [read, ← Prod.eta (pending.read size), hpending]
        rw [hread]
        refine ⟨(pending.read size).2.remaining ++ later, ?_, ⟨later, rfl, hlater⟩, ?_⟩
        · rw [hafter, ← List.append_assoc, List.take_append_drop]
        · intro hempty
          rcases List.take_eq_nil_iff.mp hempty with hzero | hnil
          · exact absurd hzero (Nat.ne_of_gt hpos)
          · exact absurd hnil hremaining

theorem allFit_of_le {reader : ClientReader} {sizes : List Nat}
    (hsizes : ∀ size ∈ sizes, maxInboundPayload ≤ size) : AllFit read Fits reader sizes := by
  induction sizes generalizing reader with
  | nil => trivial
  | cons size sizes ih =>
      obtain ⟨hsize, hsizes⟩ := List.forall_mem_cons.mp hsizes
      refine ⟨?_, ih hsizes⟩
      cases reader with
      | plain reader => exact Nat.lt_of_lt_of_le (by decide) hsize
      | fakeTls reader pending => exact .inl hsize

end ClientReader

/-! ## The handshake -/

theorem handshakeBuf_toList {filled : Bytes} (hlength : filled.length = 64) :
    (handshakeBuf filled).toList = filled := by
  change (filled ++ List.replicate 64 0).take 64 = filled
  rw [List.take_append_of_le_length (Nat.le_of_eq hlength.symm), ← hlength, List.take_length]

/-- What one ApplicationData record adds to the handshake. -/
theorem extract_encode (record : Record) (count : Nat) :
    record.encode.extract 5 (5 + count) = record.payload.take count := by
  rw [List.extract_eq_take_drop, Nat.add_sub_cancel_left]
  rfl

theorem encode_length_sub_five (record : Record) :
    record.encode.length - 5 = record.payload.length := by
  rw [Record.encode, List.length_append, Record.header_length, Nat.add_sub_cancel_left]

/-- A record that passed the checks of the loop. -/
theorem admissible_of_applicationData {record : Record}
    (hgood : ¬ (record.encode.getD 0 0 ≠ tlsRecordApplicationData ∨
      record.encode.length - 5 = 0))
    (hmax : record.payload.length ≤ maxInboundPayload) :
    Admissible maxInboundPayload record := by
  obtain ⟨htype, hpayload⟩ := not_or.mp hgood
  rw [encode_length_sub_five] at hpayload
  exact ⟨.inl ⟨not_not.mp htype, fun hnil => hpayload (List.length_eq_zero_iff.mpr hnil)⟩, hmax⟩

section Fill

variable {filled back : Bytes} {source : Source UInt8} {record : Record}

theorem fillHandshake_of_le (hfilled : 64 ≤ filled.length) :
    fillHandshake filled source = (some (filled, {}), source) := by
  rw [fillHandshake, if_pos hfilled]

/-- The loop goes on after reading one record. -/
theorem fillHandshake_encode (hfilled : filled.length < 64)
    (hsource : source.elements = record.encode ++ back)
    (hmax : record.payload.length ≤ maxInboundPayload) :
    ∃ rest, Source.elements rest = back ∧
      fillHandshake filled source =
        if record.recordType = tlsRecordChangeCipherSpec then fillHandshake filled rest
        else if record.recordType ≠ tlsRecordApplicationData ∨ record.payload.length = 0 then
          (none, rest)
        else if 64 - filled.length < record.payload.length then
          (some (filled ++ record.payload.take (64 - filled.length),
            .fromRecord record.encode (5 + (64 - filled.length))), rest)
        else fillHandshake (filled ++ record.payload) rest := by
  obtain ⟨rest, hread, hrest⟩ := readTlsRecordBytes_encode hsource hmax
  refine ⟨rest, hrest, ?_⟩
  have htype : record.encode.getD 0 0 = record.recordType := rfl
  rw [fillHandshake, if_neg (Nat.not_le.mpr hfilled)]
  split
  next heq =>
    rw [hread] at heq
    cases heq
  next heq =>
    rw [hread] at heq
    cases heq
  next heq =>
    rw [hread] at heq
    cases heq
    simp only [htype, encode_length_sub_five, extract_encode]
    by_cases hlong : 64 - filled.length < record.payload.length
    · have hmin : min record.payload.length (64 - filled.length) = 64 - filled.length :=
        Nat.min_eq_right (Nat.le_of_lt hlong)
      simp only [hmin, if_pos hlong, if_pos (Nat.ne_of_lt hlong)]
    · have hmin : min record.payload.length (64 - filled.length) = record.payload.length :=
        Nat.min_eq_left (Nat.not_lt.mp hlong)
      simp only [hmin, if_neg hlong, ne_eq, not_true_eq_false, if_false, List.take_length]

/-- The loop returns the first 64 bytes, and nothing of the rest is lost. -/
theorem fillHandshake_complete {records : List Record} (hfilled : filled.length ≤ 64)
    (hsource : source.elements = wire records)
    (hadmissible : ∀ record ∈ records, Admissible maxInboundPayload record)
    (henough : 64 ≤ (filled ++ content records).length) :
    ∃ init pending rest later, fillHandshake filled source = (some (init, pending), rest) ∧
      init.length = 64 ∧ Carries maxInboundPayload rest later ∧
      filled ++ content records = init ++ (pending.remaining ++ later) := by
  induction records generalizing filled source with
  | nil =>
      rw [content, List.flatMap_nil, List.append_nil] at henough
      exact ⟨filled, {}, source, [], fillHandshake_of_le henough,
        Nat.le_antisymm hfilled henough, ⟨[], hsource, hadmissible, rfl⟩, rfl⟩
  | cons record records ih =>
      by_cases hfull : 64 ≤ filled.length
      · exact ⟨filled, {}, source, _, fillHandshake_of_le hfull,
          Nat.le_antisymm hfilled hfull, ⟨record :: records, hsource, hadmissible, rfl⟩, rfl⟩
      obtain ⟨hrecord, hrecords⟩ := List.forall_mem_cons.mp hadmissible
      obtain ⟨rest, hrest, hfill⟩ :=
        fillHandshake_encode (Nat.not_le.mp hfull) hsource hrecord.length_le
      rw [hfill]
      rcases hrecord.kind with ⟨htype, hpayload⟩ | htype
      · have hother : record.recordType ≠ tlsRecordChangeCipherSpec := by
          rw [htype]
          decide
        have hgood : ¬ (record.recordType ≠ tlsRecordApplicationData ∨
            record.payload.length = 0) := by
          rintro (hbad | hempty)
          · exact hbad htype
          · exact hpayload (List.length_eq_zero_iff.mp hempty)
        rw [if_neg hother, if_neg hgood]
        rw [content_cons_of_applicationData records htype] at henough ⊢
        by_cases hlong : 64 - filled.length < record.payload.length
        · rw [if_pos hlong]
          refine ⟨_, _, rest, content records, rfl, ?_, ⟨records, hrest, hrecords, rfl⟩, ?_⟩
          · rw [List.length_append, List.length_take]
            omega
          · rw [PendingData.remaining_fromRecord, List.append_assoc filled,
              ← List.append_assoc (List.take _ _), List.take_append_drop]
        · rw [if_neg hlong, ← List.append_assoc]
          rw [← List.append_assoc] at henough
          refine ih ?_ hrest hrecords henough
          rw [List.length_append]
          omega
      · rw [if_pos htype]
        rw [content_cons_of_changeCipherSpec records htype] at henough ⊢
        exact ih hfilled hrest hrecords henough

/-- Conversely, a handshake that the loop returns is the beginning of what the records
carried. -/
theorem fillHandshake_sound {init : Bytes} {pending : PendingData} {rest : Source UInt8}
    (hfilled : filled.length ≤ 64)
    (hfill : fillHandshake filled source = (some (init, pending), rest)) :
    init.length = 64 ∧ ∃ records, source.elements = wire records ++ rest.elements ∧
      (∀ record ∈ records, Admissible maxInboundPayload record) ∧
      filled ++ content records = init ++ pending.remaining := by
  fun_induction fillHandshake filled source with
  | case1 filled source hfull =>
      cases hfill
      exact ⟨Nat.le_antisymm hfilled hfull, [], rfl,
        fun _ hmem => (List.not_mem_nil hmem).elim, rfl⟩
  | case2 => cases hfill
  | case3 => cases hfill
  | case4 filled source hshort bytes after hread recordType htype ih =>
      obtain ⟨record, rfl, hmax, hsource⟩ := readTlsRecordBytes_eq_some hread
      obtain ⟨hlength, records, hafter, hrecords, hcontent⟩ := ih hfilled hfill
      refine ⟨hlength, record :: records, ?_,
        List.forall_mem_cons.mpr ⟨⟨.inr htype, hmax⟩, hrecords⟩, ?_⟩
      · rw [hsource, hafter, ← List.append_assoc]
        rfl
      · rw [content_cons_of_changeCipherSpec records htype, hcontent]
  | case5 => cases hfill
  | case6 filled source hshort bytes after hread recordType payloadLen hother hgood count next
      hlong =>
      obtain ⟨record, rfl, hmax, hsource⟩ := readTlsRecordBytes_eq_some hread
      have hlength : payloadLen = record.payload.length := encode_length_sub_five record
      have hcount : count = 64 - filled.length ∧ 64 - filled.length < payloadLen := by omega
      have hrecord := admissible_of_applicationData hgood hmax
      have hnext : next = filled ++ record.payload.take count := by
        change filled ++ record.encode.extract 5 (5 + count) = _
        rw [extract_encode]
      simp only [Prod.mk.injEq, Option.some.injEq] at hfill
      obtain ⟨⟨rfl, rfl⟩, rfl⟩ := hfill
      refine ⟨?_, [record], ?_, List.forall_mem_singleton.mpr hrecord, ?_⟩
      · rw [hnext, List.length_append, List.length_take]
        omega
      · rw [hsource]
        simp [wire]
      · rw [PendingData.remaining_fromRecord, hnext, List.append_assoc, List.take_append_drop,
          content_cons_of_applicationData [] (not_not.mp (not_or.mp hgood).1)]
        simp [content]
  | case7 filled source hshort bytes after hread recordType payloadLen hother hgood count next
      hwhole ih =>
      obtain ⟨record, rfl, hmax, hsource⟩ := readTlsRecordBytes_eq_some hread
      have hlength : payloadLen = record.payload.length := encode_length_sub_five record
      have hcount : count = record.payload.length := (not_not.mp hwhole).trans hlength
      have hnext : next = filled ++ record.payload := by
        change filled ++ record.encode.extract 5 (5 + count) = _
        rw [extract_encode, hcount, List.take_length]
      have hroom : next.length ≤ 64 := by
        rw [hnext, List.length_append]
        omega
      obtain ⟨hinit, records, hafter, hrecords, hcontent⟩ := ih hroom hfill
      refine ⟨hinit, record :: records, ?_,
        List.forall_mem_cons.mpr ⟨admissible_of_applicationData hgood hmax, hrecords⟩, ?_⟩
      · rw [hsource, hafter, ← List.append_assoc]
        rfl
      · rw [content_cons_of_applicationData records (not_not.mp (not_or.mp hgood).1),
          ← List.append_assoc, ← hnext, hcontent]

end Fill

/-! ## The whole stream -/

section Stream

variable {Ws Conn : Type} {hmac : Hmac} {width : PointerWidth} {secrets : List Bytes}
  {domain : String} {source : Source UInt8}

/-- The listener accepts the record as a hello. -/
structure HelloAccepted (hmac : Hmac) (width : PointerWidth) (secrets : List Bytes)
    (domain : String) (record : Record) : Prop where
  recordType : record.recordType = tlsRecordHandshake
  version : record.version = (0x03, 0x01)
  length_le : record.payload.length ≤ maxInboundPayload
  hello : ∃ hello secret, findHello hmac width record.encode secrets = .ok (some (hello, secret)) ∧
    hello.hostname = some domain

theorem HelloAccepted.acceptedHello {record : Record}
    (haccepted : HelloAccepted hmac width secrets domain record) :
    ∃ hello secret,
      acceptedHello hmac width secrets domain record.encode = some (hello, secret) := by
  obtain ⟨hello, secret, hfind, hhostname⟩ := haccepted.hello
  refine ⟨hello, secret, ?_⟩
  have htype : record.encode.getD 0 0 = tlsRecordHandshake := haccepted.recordType
  have hversion : record.encode.extract 1 3 = [0x03, 0x01] := by
    change [record.version.1, record.version.2] = _
    rw [haccepted.version]
  rw [Client.acceptedHello, htype, hversion, if_neg (by simp), hfind]
  exact if_neg (not_not.mpr hhostname)

/-- When its flight was sent, the listener returns what the loop collects. -/
theorem acceptInboundFaketls_result {record : Bytes} {reader : Source UInt8}
    {accepted : FakeTlsClientHello × Bytes} {trace : Trace (handlerSig Ws Conn)}
    {result : Option (Block 64 × PendingData × Source UInt8)}
    (hread : readTlsRecordBytes maxInboundPayload source = (.ok (some record), reader))
    (haccepted : acceptedHello hmac width secrets domain record = some accepted)
    (hrun : Runs (acceptInboundFaketls hmac width secrets domain source) trace result)
    (hsent : ∀ bytes, ⟨.inl (.write bytes), false⟩ ∉ trace) :
    result = collectHandshake reader := by
  simp only [acceptInboundFaketls, hread, haccepted] at hrun
  obtain ⟨building, _, flight, rfl, -, hwriting⟩ := Program.runs_bind_iff.mp hrun
  obtain ⟨writing, _, sent, rfl, hwrite, hfilling⟩ := Program.runs_bind_iff.mp hwriting
  clear hrun hwriting
  cases hwrite with
  | call reply hpure =>
      cases hpure
      cases sent with
      | false => exact absurd (by simp) (hsent flight)
      | true =>
          cases hfilling
          rfl

/-- There is a run in which the flight is sent. -/
theorem exists_run_sent {record : Bytes} {reader : Source UInt8}
    {accepted : FakeTlsClientHello × Bytes}
    (hread : readTlsRecordBytes maxInboundPayload source = (.ok (some record), reader))
    (haccepted : acceptedHello hmac width secrets domain record = some accepted) :
    ∃ trace result, Runs (acceptInboundFaketls hmac width secrets domain source :
        Handler Ws Conn (Option (Block 64 × PendingData × Source UInt8))) trace result ∧
      ∀ bytes, ⟨.inl (.write bytes), false⟩ ∉ trace := by
  simp only [acceptInboundFaketls, hread, haccepted]
  have hbuild : ∃ building flight, Runs (buildFaketlsServerHello hmac accepted.2 accepted.1 :
      Handler Ws Conn Bytes) building flight ∧
        ∀ bytes, ⟨.inl (.write bytes), false⟩ ∉ building :=
    ⟨_, _, .call (List.Vector.replicate 32 0) (.call (0 : UInt32)
      (.call (List.Vector.replicate _ 0) (.pure _))), by simp⟩
  obtain ⟨building, flight, hbuild, hbuilding⟩ := hbuild
  have hwrite : Runs (perform (.write flight) : Handler Ws Conn Bool)
      [⟨.inl (.write flight), true⟩] true :=
    @Program.Runs.perform (handlerSig Ws Conn) (.inl (.write flight)) true
  refine ⟨_, _, hbuild.bind (hwrite.bind (.pure (collectHandshake reader))), ?_⟩
  intro bytes hmem
  rcases List.mem_append.mp hmem with hmem | hmem
  · exact hbuilding bytes hmem
  · simp at hmem

/-- Nothing of an inbound FakeTLS stream is lost: after an accepted hello, whatever the
records are that carry it, the handshake is its first 64 bytes and the reads return the
rest, in order and all of it before a read that returns nothing. -/
theorem inbound_reassembly {hello : Record} {records : List Record} {stream : Bytes}
    {trace : Trace (handlerSig Ws Conn)} {result : Option (Block 64 × PendingData × Source UInt8)}
    (hhello : HelloAccepted hmac width secrets domain hello)
    (hrecords : ∀ record ∈ records, Admissible maxInboundPayload record)
    (hcontent : content records = stream) (hlength : 64 ≤ stream.length)
    (hsource : source.elements = hello.encode ++ wire records)
    (hrun : Runs (acceptInboundFaketls hmac width secrets domain source) trace result)
    (hsent : ∀ bytes, ⟨.inl (.write bytes), false⟩ ∉ trace) :
    ∃ handshake pending reader, result = some (handshake, pending, reader) ∧
      handshake.toList = stream.take 64 ∧
      ∀ sizes, AllFit ClientReader.read ClientReader.Fits (.fakeTls reader pending) sizes →
        (reads ClientReader.read sizes (.fakeTls reader pending)).1.flatten <+: stream.drop 64 ∧
          ([] ∈ (reads ClientReader.read sizes (.fakeTls reader pending)).1 ∨
              (stream.drop 64).length ≤ sizes.length →
            (reads ClientReader.read sizes (.fakeTls reader pending)).1.flatten =
              stream.drop 64) := by
  obtain ⟨middle, hread, hmiddle⟩ := readTlsRecordBytes_encode hsource hhello.length_le
  obtain ⟨accepted, secret, haccepted⟩ := hhello.acceptedHello
  have hresult := acceptInboundFaketls_result hread haccepted hrun hsent
  obtain ⟨init, pending, reader, later, hfill, hinit, hcarries, hsplit⟩ :=
    @fillHandshake_complete [] middle records (Nat.zero_le _) hmiddle hrecords
      (by rwa [List.nil_append, hcontent])
  rw [List.nil_append, hcontent] at hsplit
  rw [collectHandshake, hfill] at hresult
  refine ⟨handshakeBuf init, pending, reader, hresult, ?_, ?_⟩
  · rw [handshakeBuf_toList hinit, hsplit, ← hinit, List.take_left]
  · intro sizes hfit
    have hrest : stream.drop 64 = pending.remaining ++ later := by
      rw [hsplit, ← hinit, List.drop_left]
    exact ClientReader.read_delivers.reads ⟨later, hrest, hcarries⟩ hfit

/-- A digest that is always zero. -/
def zeroHmac : Hmac := fun _ _ => List.Vector.replicate 32 0

/-- The body of a hello for the domain `a`. -/
def sampleBody : Bytes :=
  [3, 3] ++ List.replicate 32 0 ++ [0] ++ [0, 2, 0x13, 0x01] ++ [1, 0] ++
    [0, 10, 0, 0, 0, 6, 0, 4, 0, 0, 1, 97]

def sampleHello : Record where
  recordType := tlsRecordHandshake
  version := (0x03, 0x01)
  payload := [tlsHandshakeClientHello, 0, 0, 53] ++ sampleBody
  fits := by decide

theorem sampleHello_parsed :
    parseFaketlsClientHello zeroHmac .bits64 sampleHello.encode [] =
      .ok (some ⟨List.Vector.replicate 32 0, [], (0x13, 0x01), some "a"⟩) := by
  have hverify : verifyClientHello zeroHmac .bits64 sampleHello.encode [] =
      .ok (some (List.Vector.replicate 32 0, sampleBody)) := by decide +kernel
  have hsni : parseSniExtension .bits64 [0, 0, 0, 6, 0, 4, 0, 0, 1, 97] = .ok (some "a") := by
    rw [parseSniExtension]
    decide +kernel
  rw [parseFaketlsClientHello, hverify]
  set_option maxRecDepth 4000 in
  change (parseSniExtension .bits64 [0, 0, 0, 6, 0, 4, 0, 0, 1, 97] >>= fun hostname => _) = _
  rw [hsni]
  rfl

theorem sampleHello_accepted : HelloAccepted zeroHmac .bits64 [[]] "a" sampleHello where
  recordType := rfl
  version := rfl
  length_le := by decide
  hello := by
    refine ⟨⟨List.Vector.replicate 32 0, [], (0x13, 0x01), some "a"⟩, [], ?_, rfl⟩
    rw [findHello, sampleHello_parsed]
    rfl

/-- Seventy bytes in one record, behind a ChangeCipherSpec. -/
def sampleRecords : List Record :=
  [{ recordType := tlsRecordChangeCipherSpec, version := tlsVersion12, payload := [1],
     fits := by decide },
   { recordType := tlsRecordApplicationData, version := tlsVersion12,
     payload := List.replicate 70 7, fits := by decide }]

theorem sampleRecords_admissible :
    ∀ record ∈ sampleRecords, Admissible maxInboundPayload record := by
  intro record hmem
  rcases List.mem_pair.mp hmem with rfl | rfl
  · exact ⟨.inr rfl, by decide⟩
  · exact ⟨.inl ⟨rfl, by decide⟩, by decide⟩

theorem inbound_reassembly_sampleRecords :
    ∃ trace result, Runs (acceptInboundFaketls zeroHmac .bits64 [[]] "a"
        [sampleHello.encode ++ wire sampleRecords] :
        Handler Unit Unit (Option (Block 64 × PendingData × Source UInt8))) trace result ∧
      ∃ handshake pending reader, result = some (handshake, pending, reader) ∧
        handshake.toList = List.replicate 64 7 ∧
        (reads ClientReader.read (List.replicate 6 maxInboundPayload)
          (.fakeTls reader pending)).1.flatten = List.replicate 6 7 := by
  have hsource : Source.elements [sampleHello.encode ++ wire sampleRecords] =
      sampleHello.encode ++ wire sampleRecords := List.append_nil _
  obtain ⟨_, hread, -⟩ := readTlsRecordBytes_encode hsource sampleHello_accepted.length_le
  obtain ⟨_, _, haccepted⟩ := sampleHello_accepted.acceptedHello
  obtain ⟨trace, result, hrun, hsent⟩ := exists_run_sent hread haccepted
  obtain ⟨handshake, pending, reader, hresult, hhandshake, hreads⟩ :=
    inbound_reassembly sampleHello_accepted sampleRecords_admissible
      (show content sampleRecords = List.replicate 70 7 from rfl) (by decide) hsource hrun hsent
  refine ⟨trace, result, hrun, handshake, pending, reader, hresult, hhandshake, ?_⟩
  refine (hreads _ (ClientReader.allFit_of_le ?_)).2 (.inr (by decide))
  intro size hmem
  exact (List.eq_of_mem_replicate hmem).ge

end Stream

end TgWsProxy.Client
