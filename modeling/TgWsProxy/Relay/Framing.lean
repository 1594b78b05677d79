import TgWsProxy.Bridge.Pump
import TgWsProxy.Client.Reassembly

/-!
# Framing on the connections of a relay

A relay speaks to its client and to the upstream proxy over a plain stream or over
ApplicationData records, each side on its own terms. What one proxy has written, the
next one reads: all of it when everything arrived, and otherwise what the whole frames
before the break carry.
-/

namespace TgWsProxy.Relay

open Foundation.Stream TgWsProxy.Crypto TgWsProxy.FakeTls TgWsProxy.Client
open Bridge (Sink)

/-- The bytes of a connection as they are, or in ApplicationData records. -/
inductive Framing
  | raw
  | appdata
  deriving DecidableEq, Repr

namespace Framing

def read (framing : Framing) (bufLen : Nat) (source : Source UInt8) : Bytes × Source UInt8 :=
  match framing with
  | .raw => source.read bufLen
  | .appdata => readTlsAppdata bufLen source

def write (framing : Framing) (sink : Sink) (data : Bytes) : Sink × Bool :=
  match framing with
  | .raw => sink.send data
  | .appdata => writeTlsAppdata sink data

/-- The writes for some data. -/
def frames (framing : Framing) (data : Bytes) : List Bytes :=
  match framing with
  | .raw => [data]
  | .appdata => appdataWrites data

/-- The bytes on the wire carry the given ones, in whole frames. -/
def Carries (framing : Framing) (onWire bytes : Bytes) : Prop :=
  match framing with
  | .raw => onWire = bytes
  | .appdata => ∃ records, onWire = wire records ∧ (∀ record ∈ records, Emitted record) ∧
      content records = bytes

end Framing

/-! ## Streams that break off -/

/-- A part of an admissible record that is not all of it. -/
def Broken (limit : Nat) (bytes : Bytes) : Prop :=
  ∃ (record : Record) (rest : Bytes), Admissible limit record ∧ rest ≠ [] ∧
    record.encode = bytes ++ rest

/-- The source holds whole records that carry the bytes, and perhaps a part of one more. -/
def Truncated (limit : Nat) (source : Source UInt8) (bytes : Bytes) : Prop :=
  ∃ records tail, source.elements = wire records ++ tail ∧
    (∀ record ∈ records, Admissible limit record) ∧ content records = bytes ∧
    (tail = [] ∨ Broken limit tail)

/-- A record that breaks off ends the stream. -/
theorem readTlsAppdata_broken {limit bufLen : Nat} {source : Source UInt8}
    (hbroken : Broken limit source.elements) (hsize : limit ≤ bufLen) :
    readTlsAppdata bufLen source = ([], []) := by
  obtain ⟨record, rest, hrecord, hrest, hencode⟩ := hbroken
  have hlength := congrArg List.length hencode
  rw [Record.encode, List.length_append, Record.header_length, List.length_append] at hlength
  have hpos := List.length_pos_of_ne_nil hrest
  rw [readTlsAppdata_eq]
  rcases Nat.lt_or_ge source.elements.length 5 with hshort | hlong
  · rw [Source.readExact_of_lt hshort]
  · -- The header is there, and the payload is not.
    obtain ⟨front, hfront⟩ : record.header <+: source.elements :=
      List.prefix_of_prefix_length_le ⟨record.payload, rfl⟩ ⟨rest, hencode.symm⟩ hlong
    obtain ⟨middle, hheader, hmiddle⟩ := Source.readExact_append hfront.symm
    rw [Record.header_length] at hheader
    have hpayload : Source.readExact record.payload.length middle = (none, []) := by
      apply Source.readExact_of_lt
      have hall := congrArg List.length hfront
      rw [List.length_append, Record.header_length] at hall
      rw [hmiddle]
      omega
    have hroom : ¬ bufLen < record.payload.length :=
      Nat.not_lt.mpr (hrecord.length_le.trans hsize)
    rw [hheader]
    simp only [Record.payloadLen_header, if_neg hroom, hpayload, Record.header_getD_zero]
    rcases hrecord.kind with ⟨htype, -⟩ | htype
    · rw [if_pos htype]
    · have hother : tlsRecordChangeCipherSpec ≠ tlsRecordApplicationData := by decide
      rw [htype, if_neg hother, if_pos rfl]

theorem readTlsAppdata_delivers_truncated (limit : Nat) :
    Delivers readTlsAppdata (fun _ size => limit ≤ size) (Truncated limit) := by
  rintro source size _ ⟨records, tail, hsource, hadmissible, rfl, htail⟩ hsize
  induction records generalizing source with
  | nil =>
      have hread : readTlsAppdata size source = ([], []) := by
        rcases htail with rfl | hbroken
        · exact readTlsAppdata_ended hsource
        · exact readTlsAppdata_broken (hsource ▸ hbroken) hsize
      rw [hread]
      exact ⟨[], rfl, ⟨[], [], rfl, fun _ hmem => (List.not_mem_nil hmem).elim, rfl, .inl rfl⟩,
        fun _ => rfl⟩
  | cons record records ih =>
      obtain ⟨hrecord, hrecords⟩ := List.forall_mem_cons.mp hadmissible
      have hfits : record.payload.length ≤ size := hrecord.length_le.trans hsize
      rw [wire, List.flatMap_cons, List.append_assoc] at hsource
      rcases hrecord.kind with ⟨htype, hpayload⟩ | htype
      · obtain ⟨rest, hread, hrest⟩ := readTlsAppdata_applicationData hsource htype hfits
        rw [hread, content_cons_of_applicationData records htype]
        exact ⟨content records, rfl, ⟨records, tail, hrest, hrecords, rfl, htail⟩,
          fun hempty => absurd hempty hpayload⟩
      · obtain ⟨rest, hread, hrest⟩ := readTlsAppdata_changeCipherSpec hsource htype hfits
        rw [hread, content_cons_of_changeCipherSpec records htype]
        exact ih rest hrest hrecords

/-- Wherever a stream of records breaks off, the whole records before the break carry the
beginning of its content. -/
theorem exists_truncated {limit : Nat} {source : Source UInt8} {records : List Record}
    (hadmissible : ∀ record ∈ records, Admissible limit record)
    (hbeginning : source.elements <+: wire records) :
    ∃ got, Truncated limit source got ∧ got <+: content records := by
  have hcut : ∀ (records : List Record) (bytes : Bytes),
      (∀ record ∈ records, Admissible limit record) → bytes <+: wire records →
      ∃ front tail, bytes = wire front ++ tail ∧ (∀ record ∈ front, Admissible limit record) ∧
        content front <+: content records ∧ (tail = [] ∨ Broken limit tail) := by
    intro records
    induction records with
    | nil =>
        intro bytes _ hbytes
        obtain rfl := List.prefix_nil.mp hbytes
        exact ⟨[], [], rfl, fun _ hmem => (List.not_mem_nil hmem).elim, List.prefix_rfl, .inl rfl⟩
    | cons record records ih =>
        intro bytes hadmissible hbytes
        obtain ⟨hrecord, hrecords⟩ := List.forall_mem_cons.mp hadmissible
        have hwire : wire (record :: records) = record.encode ++ wire records := rfl
        rw [hwire] at hbytes
        by_cases hwhole : record.encode <+: bytes
        · obtain ⟨later, rfl⟩ := hwhole
          obtain ⟨front, tail, rfl, hfront, hcontent, htail⟩ :=
            ih later hrecords ((List.prefix_append_right_inj _).mp hbytes)
          refine ⟨record :: front, tail, ?_, List.forall_mem_cons.mpr ⟨hrecord, hfront⟩, ?_, htail⟩
          · exact (List.append_assoc record.encode (wire front) tail).symm
          · rw [content, content, List.flatMap_cons, List.flatMap_cons]
            exact (List.prefix_append_right_inj _).mpr hcontent
        · have hpart : bytes <+: record.encode :=
            (List.prefix_or_prefix_of_prefix hbytes (List.prefix_append _ _)).resolve_right hwhole
          obtain ⟨rest, hrest⟩ := hpart
          refine ⟨[], bytes, rfl, fun _ hmem => (List.not_mem_nil hmem).elim, List.nil_prefix,
            .inr ⟨record, rest, hrecord, ?_, hrest.symm⟩⟩
          rintro rfl
          exact hwhole ⟨[], by rw [← hrest]; simp⟩
  obtain ⟨front, tail, hsource, hfront, hcontent, htail⟩ :=
    hcut records _ hadmissible hbeginning
  exact ⟨content front, ⟨front, tail, hsource, hfront, rfl, htail⟩, hcontent⟩

/-! ## Reading what was written -/

theorem admissible_of_emitted {record : Record} (hrecord : Emitted record) :
    Admissible maxInboundPayload record :=
  ⟨.inl ⟨hrecord.recordType, List.ne_nil_of_length_pos hrecord.payload_pos⟩,
    hrecord.payload_le.trans (Nat.le_add_right _ _)⟩

namespace Framing

/-- What the source has still to return. -/
def Pending (framing : Framing) (source : Source UInt8) (bytes : Bytes) : Prop :=
  match framing with
  | .raw => source.elements = bytes
  | .appdata => Truncated maxInboundPayload source bytes

/-- A buffer that takes what one read may return. -/
def Fits (framing : Framing) (size : Nat) : Prop :=
  match framing with
  | .raw => 0 < size
  | .appdata => maxInboundPayload ≤ size

theorem read_delivers (framing : Framing) :
    Delivers framing.read (fun _ size => framing.Fits size) framing.Pending := by
  cases framing with
  | raw =>
      rintro source size _ rfl hsize
      obtain ⟨hsplit, hempty⟩ := @Source.elements_of_read _ size source hsize
      exact ⟨_, hsplit, rfl, hempty⟩
  | appdata => exact readTlsAppdata_delivers_truncated maxInboundPayload

/-- A peer that gets the beginning of what was written has the beginning of what it
carries, and all of it when nothing is missing. -/
theorem Carries.received {framing : Framing} {onWire bytes : Bytes} {source : Source UInt8}
    (hcarries : framing.Carries onWire bytes) (hsource : source.elements <+: onWire) :
    ∃ got, framing.Pending source got ∧ got <+: bytes ∧
      (source.elements = onWire → got = bytes) := by
  cases framing with
  | raw =>
      obtain rfl : onWire = bytes := hcarries
      exact ⟨source.elements, rfl, hsource, id⟩
  | appdata =>
      obtain ⟨records, rfl, hemitted, rfl⟩ := hcarries
      have hadmissible : ∀ record ∈ records, Admissible maxInboundPayload record :=
        fun record hmem => admissible_of_emitted (hemitted record hmem)
      by_cases hall : source.elements = wire records
      · exact ⟨content records, ⟨records, [], by rw [hall, List.append_nil], hadmissible, rfl,
          .inl rfl⟩, List.prefix_rfl, fun _ => rfl⟩
      · obtain ⟨got, hgot, hbeginning⟩ := exists_truncated hadmissible hsource
        exact ⟨got, hgot, hbeginning, fun heq => absurd heq hall⟩

theorem carries_nil (framing : Framing) : framing.Carries [] [] := by
  cases framing with
  | raw => rfl
  | appdata => exact ⟨[], rfl, fun _ hmem => (List.not_mem_nil hmem).elim, rfl⟩

/-- More data behind whole frames. -/
theorem Carries.append {framing : Framing} {onWire bytes : Bytes}
    (hcarries : framing.Carries onWire bytes) (data : Bytes) :
    framing.Carries (onWire ++ (framing.frames data).flatten) (bytes ++ data) := by
  cases framing with
  | raw =>
      obtain rfl : onWire = bytes := hcarries
      change onWire ++ [data].flatten = onWire ++ data
      rw [List.flatten_singleton]
  | appdata =>
      obtain ⟨records, rfl, hemitted, rfl⟩ := hcarries
      refine ⟨records ++ appdataRecords data, ?_, ?_, ?_⟩
      · simp only [frames, appdataWrites_flatten, wire, List.flatMap_append]
      · intro record hmem
        rcases List.mem_append.mp hmem with hmem | hmem
        · exact hemitted record hmem
        · exact appdataRecords_emitted data record hmem
      · rw [content_append, content_appdataRecords]

/-- Whole frames, and behind them what is there of some more. -/
theorem Carries.pending_append {framing : Framing} {onWire bytes rest more : Bytes}
    {source : Source UInt8} (hcarries : framing.Carries onWire bytes)
    (hmore : framing.Pending [rest] more) (hsource : source.elements = onWire ++ rest) :
    framing.Pending source (bytes ++ more) := by
  cases framing with
  | raw =>
      obtain rfl : onWire = bytes := hcarries
      obtain rfl : [rest].flatten = more := hmore
      rw [List.flatten_singleton]
      exact hsource
  | appdata =>
      obtain ⟨records, rfl, hemitted, rfl⟩ := hcarries
      obtain ⟨others, tail, hrest, hadmissible, rfl, htail⟩ := hmore
      obtain rfl : rest = wire others ++ tail := by
        rw [← hrest]
        exact List.flatten_singleton.symm
      refine ⟨records ++ others, tail, ?_, ?_, content_append records others, htail⟩
      · rw [hsource, wire, wire, wire, List.flatMap_append, List.append_assoc]
      · intro record hmem
        rcases List.mem_append.mp hmem with hmem | hmem
        · exact admissible_of_emitted (hemitted record hmem)
        · exact hadmissible record hmem

/-- A write adds the frames of the data, or fails with some of them written. -/
theorem write_cases (framing : Framing) (sink : Sink) (data : Bytes) :
    ((framing.write sink data).2 = true ∧
        (framing.write sink data).1.accepted = sink.accepted ++ framing.frames data ∧
        (sink.Reliable → (framing.write sink data).1.Reliable)) ∨
      ((framing.write sink data).2 = false ∧ ¬ sink.Reliable ∧
        (framing.write sink data).1.accepted.flatten <+:
          (sink.accepted ++ framing.frames data).flatten) := by
  cases framing with
  | raw =>
      rcases sink.send_cases data with ⟨hsent, haccepted, hreliable⟩ | ⟨hfailed, haccepted, hbad⟩
      · exact .inl ⟨hsent, haccepted, hreliable⟩
      · refine .inr ⟨hfailed, hbad, ?_⟩
        simp only [write, haccepted, List.flatten_append]
        exact List.prefix_append _ _
  | appdata =>
      rcases sink.sendParts_cases (appdataWrites data) with
        ⟨hsent, haccepted, hreliable⟩ | ⟨hfailed, hbad, sent, ⟨unsent, hsplit⟩, haccepted⟩
      · exact .inl ⟨hsent, haccepted, hreliable⟩
      · refine .inr ⟨hfailed, hbad, ?_⟩
        simp only [write, writeTlsAppdata, frames, haccepted, List.flatten_append]
        rw [← hsplit, List.flatten_append, ← List.append_assoc]
        exact List.prefix_append _ _

end Framing

end TgWsProxy.Relay
