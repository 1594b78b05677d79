import TgWsProxy.Bridge.Model
import TgWsProxy.Foundation.Stream

/-!
# TLS records

The framing that FakeTLS puts around a byte stream: a five-byte header with the
type, the version and the length, and the payload. The readers work on what a
socket delivers, in whatever pieces it arrives. A record of its own makes
statements about streams of records possible.
-/

namespace TgWsProxy.FakeTls

open Foundation.Stream TgWsProxy.Crypto
open Bridge (Sink)

/-! ## Constants -/

def tlsRecordHandshake : UInt8 := 0x16
def tlsRecordChangeCipherSpec : UInt8 := 0x14
def tlsRecordApplicationData : UInt8 := 0x17

def tlsVersion12 : UInt8 × UInt8 := (0x03, 0x03)

def tlsMaxRecordPayload : Nat := 16384
def tlsMaxAppdataWrite : Nat := tlsMaxRecordPayload

/-- The allowance of the readers over a full record. -/
def tlsReadHeadroom : Nat := 256

/-- `u16::from_be_bytes`. -/
def u16FromBeBytes (high low : UInt8) : Nat := high.toNat * 256 + low.toNat

/-- `[(len >> 8) as u8, len as u8]`, and `u16::to_be_bytes` of a truncated length. -/
def u16ToBeBytes (len : Nat) : Bytes := [UInt8.ofNat (len >>> 8), UInt8.ofNat len]

theorem u16FromBeBytes_lt (high low : UInt8) : u16FromBeBytes high low < 2 ^ 16 := by
  have hhigh := high.toNat_lt
  have hlow := low.toNat_lt
  unfold u16FromBeBytes
  omega

theorem u16FromBeBytes_u16ToBeBytes {len : Nat} (hlen : len < 2 ^ 16) :
    u16FromBeBytes (UInt8.ofNat (len >>> 8)) (UInt8.ofNat len) = len := by
  simp only [u16FromBeBytes, UInt8.toNat_ofNat', Nat.shiftRight_eq_div_pow]
  omega

theorem u16ToBeBytes_u16FromBeBytes (high low : UInt8) :
    u16ToBeBytes (u16FromBeBytes high low) = [high, low] := by
  have hlow := low.toNat_lt
  have hhigh : UInt8.ofNat (u16FromBeBytes high low >>> 8) = high := by
    rw [u16FromBeBytes, Nat.shiftRight_eq_div_pow, Nat.mul_comm,
      Nat.mul_add_div (by decide), Nat.div_eq_of_lt hlow, Nat.add_zero, UInt8.ofNat_toNat]
  have hrest : UInt8.ofNat (u16FromBeBytes high low) = low := by
    rw [u16FromBeBytes, ← UInt8.toNat_inj, UInt8.toNat_ofNat']
    omega
  rw [u16ToBeBytes, hhigh, hrest]

/-! ## Readers and the writer -/

/-- The error of an exact read at the end of the stream. -/
inductive ReadError
  | unexpectedEof
  deriving DecidableEq, Repr

/-- The length field of a record header. -/
def payloadLen (header : Bytes) : Nat := u16FromBeBytes (header.getD 3 0) (header.getD 4 0)

/-- One whole record, header included. -/
def readTlsRecordBytes (maxPayloadLen : Nat) (source : Source UInt8) :
    Except ReadError (Option Bytes) × Source UInt8 :=
  match source.readExact 5 with
  | (none, rest) => (.ok none, rest)
  | (some header, rest) =>
      if maxPayloadLen < payloadLen header then (.ok none, rest)
      else
        match Source.readExact (payloadLen header) rest with
        | (none, rest) => (.error .unexpectedEof, rest)
        | (some payload, rest) => (.ok (some (header ++ payload)), rest)

/-- The payload of the next ApplicationData record, as far as it is in the buffer
afterwards; nothing stands for the end of the stream and for every error. -/
def readTlsAppdata (bufLen : Nat) (source : Source UInt8) : Bytes × Source UInt8 :=
  match hheader : source.readExact 5 with
  | (none, rest) => ([], rest)
  | (some header, rest) =>
      if bufLen < payloadLen header then ([], rest)
      else if header.getD 0 0 = tlsRecordApplicationData then
        match Source.readExact (payloadLen header) rest with
        | (none, rest) => ([], rest)
        | (some payload, rest) => (payload, rest)
      else if header.getD 0 0 = tlsRecordChangeCipherSpec then
        match hpayload : Source.readExact (payloadLen header) rest with
        | (none, rest) => ([], rest)
        | (some _, rest) => readTlsAppdata bufLen rest
      else ([], rest)
termination_by source.elements.length
decreasing_by
  obtain ⟨hsource, hlength⟩ := Source.elements_of_readExact hheader
  obtain ⟨hrest, -⟩ := Source.elements_of_readExact hpayload
  rw [hsource, hrest]
  simp only [List.length_append]
  omega

/-- The writes of `write_tls_appdata`: header and chunk by turns. -/
def appdataWrites (data : Bytes) : List Bytes :=
  if hdata : data = [] then []
  else
    let chunk := data.take tlsMaxAppdataWrite
    (tlsRecordApplicationData :: tlsVersion12.1 :: tlsVersion12.2 :: u16ToBeBytes chunk.length) ::
      chunk :: appdataWrites (data.drop tlsMaxAppdataWrite)
termination_by data.length
decreasing_by
  have hpos : 0 < data.length := List.length_pos_of_ne_nil hdata
  simp only [List.length_drop, tlsMaxAppdataWrite, tlsMaxRecordPayload]
  omega

def writeTlsAppdata (sink : Sink) (data : Bytes) : Sink × Bool :=
  sink.sendParts (appdataWrites data)

/-! ## Records -/

structure Record where
  recordType : UInt8
  version : UInt8 × UInt8
  payload : Bytes
  fits : payload.length < 2 ^ 16

namespace Record

def header (record : Record) : Bytes :=
  record.recordType :: record.version.1 :: record.version.2 :: u16ToBeBytes record.payload.length

/-- The bytes on the wire. -/
def encode (record : Record) : Bytes := record.header ++ record.payload

@[simp] theorem header_length (record : Record) : record.header.length = 5 := rfl

@[simp] theorem payloadLen_header (record : Record) :
    payloadLen record.header = record.payload.length :=
  u16FromBeBytes_u16ToBeBytes record.fits

@[simp] theorem header_getD_zero (record : Record) :
    record.header.getD 0 0 = record.recordType := rfl

theorem eq_of_length_five {α : Type} {list : List α} (hlength : list.length = 5) :
    ∃ a b c d e, list = [a, b, c, d, e] :=
  match list, hlength with
  | [a, b, c, d, e], _ => ⟨a, b, c, d, e, rfl⟩

/-- A header and as many bytes as it announces are a record. -/
theorem exists_encode {header payload : Bytes} (hheader : header.length = 5)
    (hpayload : payload.length = payloadLen header) :
    ∃ record : Record, record.encode = header ++ payload ∧ record.payload = payload ∧
      record.recordType = header.getD 0 0 := by
  obtain ⟨recordType, major, minor, high, low, rfl⟩ := eq_of_length_five hheader
  have hlen : payload.length = u16FromBeBytes high low := hpayload
  have hfits : payload.length < 2 ^ 16 := hlen ▸ u16FromBeBytes_lt high low
  refine ⟨⟨recordType, (major, minor), payload, hfits⟩, ?_, rfl, rfl⟩
  simp only [encode, Record.header, hlen, u16ToBeBytes_u16FromBeBytes]

end Record

/-- A record at the head of the stream is read in two pieces. -/
theorem readExact_encode {source : Source UInt8} {record : Record} {back : Bytes}
    (hsource : source.elements = record.encode ++ back) :
    ∃ middle rest, source.readExact 5 = (some record.header, middle) ∧
      Source.readExact record.payload.length middle = (some record.payload, rest) ∧
      Source.elements rest = back := by
  rw [Record.encode, List.append_assoc] at hsource
  obtain ⟨middle, hheader, hmiddle⟩ := Source.readExact_append hsource
  obtain ⟨rest, hpayload, hrest⟩ := Source.readExact_append hmiddle
  exact ⟨middle, rest, hheader, hpayload, hrest⟩

theorem readTlsRecordBytes_encode {maxPayloadLen : Nat} {source : Source UInt8} {record : Record}
    {back : Bytes} (hsource : source.elements = record.encode ++ back)
    (hmax : record.payload.length ≤ maxPayloadLen) :
    ∃ rest, readTlsRecordBytes maxPayloadLen source = (.ok (some record.encode), rest) ∧
      Source.elements rest = back := by
  obtain ⟨middle, rest, hheader, hpayload, hrest⟩ := readExact_encode hsource
  refine ⟨rest, ?_, hrest⟩
  have hroom : ¬ maxPayloadLen < record.payload.length := Nat.not_lt.mpr hmax
  simp only [readTlsRecordBytes, hheader, Record.payloadLen_header, hroom, if_false, hpayload]
  rfl

/-- What `read_tls_record_bytes` returns is a record at the head of the stream. -/
theorem readTlsRecordBytes_eq_some {maxPayloadLen : Nat} {source rest : Source UInt8}
    {bytes : Bytes} (hread : readTlsRecordBytes maxPayloadLen source = (.ok (some bytes), rest)) :
    ∃ record : Record, record.encode = bytes ∧ record.payload.length ≤ maxPayloadLen ∧
      source.elements = bytes ++ rest.elements := by
  unfold readTlsRecordBytes at hread
  split at hread
  next => cases hread
  next header middle hheader =>
    obtain ⟨hsource, hlength⟩ := Source.elements_of_readExact hheader
    split at hread
    next => cases hread
    next hmax =>
      split at hread
      next => cases hread
      next payload after hpayload =>
        obtain ⟨hmiddle, hpayloadLength⟩ := Source.elements_of_readExact hpayload
        cases hread
        obtain ⟨record, hencode, rfl, -⟩ := Record.exists_encode hlength hpayloadLength
        refine ⟨record, hencode, hpayloadLength.symm ▸ Nat.not_lt.mp hmax, ?_⟩
        rw [hsource, hmiddle, List.append_assoc]

section Appdata

variable {bufLen : Nat} {source : Source UInt8} {record : Record} {back : Bytes}

theorem readTlsAppdata_eq :
    readTlsAppdata bufLen source =
      match source.readExact 5 with
      | (none, rest) => ([], rest)
      | (some header, rest) =>
          if bufLen < payloadLen header then ([], rest)
          else if header.getD 0 0 = tlsRecordApplicationData then
            match Source.readExact (payloadLen header) rest with
            | (none, rest) => ([], rest)
            | (some payload, rest) => (payload, rest)
          else if header.getD 0 0 = tlsRecordChangeCipherSpec then
            match Source.readExact (payloadLen header) rest with
            | (none, rest) => ([], rest)
            | (some _, rest) => readTlsAppdata bufLen rest
          else ([], rest) := by
  rw [readTlsAppdata]
  split
  next hheader => rw [hheader]
  next header rest hheader =>
    rw [hheader]
    cases hpayload : Source.readExact (payloadLen header) rest with
    | mk payload rest => cases payload <;> simp only [hpayload]

/-- A record of one of the two types that does not exceed the buffer is taken off the
wire as a whole. -/
theorem readTlsAppdata_record (hsource : source.elements = record.encode ++ back)
    (htype : record.recordType = tlsRecordApplicationData ∨
      record.recordType = tlsRecordChangeCipherSpec)
    (hfits : record.payload.length ≤ bufLen) :
    ∃ rest, readTlsAppdata bufLen source =
        (if record.recordType = tlsRecordApplicationData then (record.payload, rest)
        else readTlsAppdata bufLen rest) ∧
      Source.elements rest = back := by
  obtain ⟨middle, rest, hheader, hpayload, hrest⟩ := readExact_encode hsource
  refine ⟨rest, ?_, hrest⟩
  have hroom : ¬ bufLen < record.payload.length := Nat.not_lt.mpr hfits
  rw [readTlsAppdata_eq, hheader]
  simp only [Record.payloadLen_header, if_neg hroom, hpayload, Record.header_getD_zero]
  by_cases happdata : record.recordType = tlsRecordApplicationData
  · simp only [if_pos happdata]
  · simp only [if_neg happdata, if_pos (htype.resolve_left happdata)]

theorem readTlsAppdata_applicationData (hsource : source.elements = record.encode ++ back)
    (htype : record.recordType = tlsRecordApplicationData)
    (hfits : record.payload.length ≤ bufLen) :
    ∃ rest, readTlsAppdata bufLen source = (record.payload, rest) ∧
      Source.elements rest = back := by
  obtain ⟨rest, hread, hrest⟩ := readTlsAppdata_record hsource (.inl htype) hfits
  rw [if_pos htype] at hread
  exact ⟨rest, hread, hrest⟩

theorem readTlsAppdata_changeCipherSpec (hsource : source.elements = record.encode ++ back)
    (htype : record.recordType = tlsRecordChangeCipherSpec)
    (hfits : record.payload.length ≤ bufLen) :
    ∃ rest, readTlsAppdata bufLen source = readTlsAppdata bufLen rest ∧
      Source.elements rest = back := by
  obtain ⟨rest, hread, hrest⟩ := readTlsAppdata_record hsource (.inr htype) hfits
  have hother : tlsRecordChangeCipherSpec ≠ tlsRecordApplicationData := by decide
  rw [htype, if_neg hother] at hread
  exact ⟨rest, hread, hrest⟩

theorem readTlsAppdata_ended (hsource : source.elements = []) :
    readTlsAppdata bufLen source = ([], []) := by
  have hheader : source.readExact 5 = (none, []) :=
    Source.readExact_of_lt (by simp [hsource])
  rw [readTlsAppdata_eq, hheader]

end Appdata

end TgWsProxy.FakeTls
