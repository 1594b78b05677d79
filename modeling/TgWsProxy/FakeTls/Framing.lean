import TgWsProxy.FakeTls.Records

/-!
# The framing undone

A stream of ApplicationData records with ChangeCipherSpec records anywhere
between them, read with `read_tls_appdata`: the reads return the payloads in
order, and nothing only at the end. The records of `write_tls_appdata` are such
a stream, and their payloads are what was written.
-/

namespace TgWsProxy.FakeTls

open Foundation.Stream TgWsProxy.Crypto
open Bridge (Sink)

/-! ## Streams of records -/

/-- The bytes of a stream of records. -/
def wire (records : List Record) : Bytes := records.flatMap Record.encode

/-- What the ApplicationData records of a stream carry. -/
def content (records : List Record) : Bytes :=
  records.flatMap fun record =>
    if record.recordType = tlsRecordApplicationData then record.payload else []

/-- ApplicationData that is not empty, or a ChangeCipherSpec, of at most `limit` bytes. -/
structure Admissible (limit : Nat) (record : Record) : Prop where
  kind : record.recordType = tlsRecordApplicationData ∧ record.payload ≠ [] ∨
    record.recordType = tlsRecordChangeCipherSpec
  length_le : record.payload.length ≤ limit

theorem content_cons_of_applicationData {record : Record} (records : List Record)
    (htype : record.recordType = tlsRecordApplicationData) :
    content (record :: records) = record.payload ++ content records := by
  simp [content, htype]

theorem content_cons_of_changeCipherSpec {record : Record} (records : List Record)
    (htype : record.recordType = tlsRecordChangeCipherSpec) :
    content (record :: records) = content records := by
  have hother : record.recordType ≠ tlsRecordApplicationData := by
    rw [htype]
    decide
  simp [content, hother]

/-- The source still holds admissible records, and they carry the given bytes. -/
def Carries (limit : Nat) (source : Source UInt8) (bytes : Bytes) : Prop :=
  ∃ records, source.elements = wire records ∧ (∀ record ∈ records, Admissible limit record) ∧
    content records = bytes

theorem readTlsAppdata_delivers (limit : Nat) :
    Delivers readTlsAppdata (fun _ size => limit ≤ size) (Carries limit) := by
  rintro source size _ ⟨records, hsource, hadmissible, rfl⟩ hsize
  induction records generalizing source with
  | nil =>
      rw [readTlsAppdata_ended hsource]
      exact ⟨[], rfl, ⟨[], rfl, fun _ hmem => (List.not_mem_nil hmem).elim, rfl⟩, fun _ => rfl⟩
  | cons record records ih =>
      obtain ⟨hrecord, hrecords⟩ := List.forall_mem_cons.mp hadmissible
      have hfits : record.payload.length ≤ size := hrecord.length_le.trans hsize
      rcases hrecord.kind with ⟨htype, hpayload⟩ | htype
      · obtain ⟨rest, hread, hrest⟩ := readTlsAppdata_applicationData hsource htype hfits
        rw [hread, content_cons_of_applicationData records htype]
        exact ⟨content records, rfl, ⟨records, hrest, hrecords, rfl⟩,
          fun hempty => absurd hempty hpayload⟩
      · obtain ⟨rest, hread, hrest⟩ := readTlsAppdata_changeCipherSpec hsource htype hfits
        rw [hread, content_cons_of_changeCipherSpec records htype]
        exact ih rest hrest hrecords

/-- A read that returns nothing has found the end of the stream. -/
theorem readTlsAppdata_exhausts {limit size : Nat} {source : Source UInt8} {bytes : Bytes}
    (hcarries : Carries limit source bytes) (hsize : limit ≤ size)
    (hempty : (readTlsAppdata size source).1 = []) :
    (readTlsAppdata size source).2.elements = [] := by
  obtain ⟨records, hsource, hadmissible, rfl⟩ := hcarries
  induction records generalizing source with
  | nil =>
      rw [readTlsAppdata_ended hsource]
      rfl
  | cons record records ih =>
      obtain ⟨hrecord, hrecords⟩ := List.forall_mem_cons.mp hadmissible
      have hfits : record.payload.length ≤ size := hrecord.length_le.trans hsize
      rcases hrecord.kind with ⟨htype, hpayload⟩ | htype
      · obtain ⟨rest, hread, -⟩ := readTlsAppdata_applicationData hsource htype hfits
        rw [hread] at hempty
        exact absurd hempty hpayload
      · obtain ⟨rest, hread, hrest⟩ := readTlsAppdata_changeCipherSpec hsource htype hfits
        rw [hread] at hempty ⊢
        exact ih hempty hrest hrecords

/-! ## What the writer emits -/

/-- The records that `write_tls_appdata` makes of the data. -/
def appdataRecords (data : Bytes) : List Record :=
  if hdata : data = [] then []
  else
    { recordType := tlsRecordApplicationData
      version := tlsVersion12
      payload := data.take tlsMaxAppdataWrite
      fits := Nat.lt_of_le_of_lt (List.length_take_le _ _) (by decide) } ::
      appdataRecords (data.drop tlsMaxAppdataWrite)
termination_by data.length
decreasing_by
  have hpos : 0 < data.length := List.length_pos_of_ne_nil hdata
  simp only [List.length_drop, tlsMaxAppdataWrite, tlsMaxRecordPayload]
  omega

theorem appdataWrites_flatten (data : Bytes) :
    (appdataWrites data).flatten = wire (appdataRecords data) := by
  fun_induction appdataWrites data with
  | case1 =>
      rw [appdataRecords]
      rfl
  | case2 data hdata chunk ih =>
      rw [appdataRecords, dif_neg hdata, List.flatten_cons, List.flatten_cons, ih]
      simp only [wire, List.flatMap_cons, ← List.append_assoc]
      rfl

theorem content_appdataRecords (data : Bytes) : content (appdataRecords data) = data := by
  fun_induction appdataRecords data with
  | case1 => rfl
  | case2 data hdata ih =>
      rw [content_cons_of_applicationData _ rfl, ih]
      exact List.take_append_drop _ _

structure Emitted (record : Record) : Prop where
  recordType : record.recordType = tlsRecordApplicationData
  version : record.version = tlsVersion12
  payload_pos : 1 ≤ record.payload.length
  payload_le : record.payload.length ≤ tlsMaxRecordPayload

theorem appdataRecords_emitted (data : Bytes) :
    ∀ record ∈ appdataRecords data, Emitted record := by
  fun_induction appdataRecords data with
  | case1 => exact fun _ hmem => (List.not_mem_nil hmem).elim
  | case2 data hdata ih =>
      refine List.forall_mem_cons.mpr ⟨⟨rfl, rfl, ?_, List.length_take_le _ _⟩, ih⟩
      have hpos : 0 < data.length := List.length_pos_of_ne_nil hdata
      simp only [List.length_take, tlsMaxAppdataWrite, tlsMaxRecordPayload]
      omega

/-! ## Round trip -/

/-- Everything on the wire after the strings were written one after another. -/
def written (strings : List Bytes) : Bytes :=
  let sink := strings.foldl (fun sink data => (writeTlsAppdata sink data).1) (Sink.connect [])
  sink.accepted.flatten

theorem sendParts_accepted (accepted parts : List Bytes) :
    Sink.sendParts ⟨accepted, [], false⟩ parts = (⟨accepted ++ parts, [], false⟩, true) := by
  induction parts generalizing accepted with
  | nil => simp [Sink.sendParts]
  | cons part parts ih => simp [Sink.sendParts, Sink.send, ih]

theorem written_eq_wire (strings : List Bytes) :
    written strings = wire (strings.flatMap appdataRecords) := by
  have hfold : ∀ accepted, strings.foldl (fun sink data => (writeTlsAppdata sink data).1)
      ⟨accepted, [], false⟩ = (⟨accepted ++ strings.flatMap appdataWrites, [], false⟩ : Sink) := by
    induction strings with
    | nil => simp
    | cons data strings ih =>
        intro accepted
        rw [List.foldl_cons, writeTlsAppdata, sendParts_accepted, ih, List.flatMap_cons,
          List.append_assoc]
  have hflatten : (strings.flatMap appdataWrites).flatten =
      wire (strings.flatMap appdataRecords) := by
    clear hfold
    induction strings with
    | nil => rfl
    | cons data strings ih =>
        rw [List.flatMap_cons, List.flatten_append, ih, appdataWrites_flatten, wire, wire, wire,
          List.flatMap_cons, List.flatMap_append]
  rw [written, Sink.connect, hfold, List.nil_append, hflatten]

theorem content_flatMap_appdataRecords (strings : List Bytes) :
    content (strings.flatMap appdataRecords) = strings.flatten := by
  induction strings with
  | nil => rfl
  | cons data strings ih =>
      rw [List.flatMap_cons, content, List.flatMap_append, ← content, ← content, ih,
        content_appdataRecords, List.flatten_cons]

/-- ChangeCipherSpec records carry nothing. -/
theorem content_filter (records : List Record) :
    content (records.filter fun record => record.recordType ≠ tlsRecordChangeCipherSpec) =
      content records := by
  induction records with
  | nil => rfl
  | cons record records ih =>
      by_cases htype : record.recordType = tlsRecordChangeCipherSpec
      · rw [List.filter_cons_of_neg (by simp [htype]), ih,
          content_cons_of_changeCipherSpec records htype]
      · rw [List.filter_cons_of_pos (by simp [htype]), content, List.flatMap_cons, ← content, ih,
          content, content, List.flatMap_cons]

/-- What was written comes back: the writer emits proper records, and whatever
ChangeCipherSpec records are put between them, reading returns the strings in order,
all of them before the first read that returns nothing, and with that read nothing is left
on the stream. -/
theorem appdata_round_trip (strings : List Bytes) :
    ∃ emitted, written strings = wire emitted ∧ (∀ record ∈ emitted, Emitted record) ∧
      ∀ (bufLen : Nat) (stream : List Record) (source : Source UInt8) (sizes : List Nat),
        tlsMaxRecordPayload ≤ bufLen →
        (stream.filter fun record => record.recordType ≠ tlsRecordChangeCipherSpec) = emitted →
        (∀ record ∈ stream, record.recordType = tlsRecordChangeCipherSpec →
          record.payload.length ≤ bufLen) →
        source.elements = wire stream → (∀ size ∈ sizes, bufLen ≤ size) →
        (reads readTlsAppdata sizes source).1.flatten <+: strings.flatten ∧
          ([] ∈ (reads readTlsAppdata sizes source).1 ∨ strings.flatten.length ≤ sizes.length →
            (reads readTlsAppdata sizes source).1.flatten = strings.flatten) ∧
          ([] ∈ (reads readTlsAppdata sizes source).1 →
            Source.elements (reads readTlsAppdata sizes source).2 = []) := by
  have hemitted : ∀ record ∈ strings.flatMap appdataRecords, Emitted record := by
    intro record hmem
    obtain ⟨data, -, hdata⟩ := List.mem_flatMap.mp hmem
    exact appdataRecords_emitted data record hdata
  refine ⟨strings.flatMap appdataRecords, written_eq_wire strings, hemitted, ?_⟩
  intro bufLen stream source sizes hbufLen hfilter hspecs hsource hsizes
  have hadmissible : ∀ record ∈ stream, Admissible bufLen record := by
    intro record hmem
    by_cases htype : record.recordType = tlsRecordChangeCipherSpec
    · exact ⟨.inr htype, hspecs record hmem htype⟩
    · have hrecord := hemitted record (hfilter ▸ List.mem_filter.mpr ⟨hmem, by simp [htype]⟩)
      exact ⟨.inl ⟨hrecord.recordType, List.ne_nil_of_length_pos hrecord.payload_pos⟩,
        hrecord.payload_le.trans hbufLen⟩
  have hcarries : Carries bufLen source strings.flatten := by
    refine ⟨stream, hsource, hadmissible, ?_⟩
    rw [← content_filter, hfilter, content_flatMap_appdataRecords]
  have hfit := @allFit_of_forall _ _ readTlsAppdata (bufLen ≤ ·) source sizes hsizes
  obtain ⟨hbeginning, hall⟩ := (readTlsAppdata_delivers bufLen).reads hcarries hfit
  refine ⟨hbeginning, hall, (readTlsAppdata_delivers bufLen).reads_ended
    (fun source => source.elements = []) ?_ ?_ hcarries hfit⟩
  · intro state size content hstate hsize hempty
    exact readTlsAppdata_exhausts hstate hsize hempty
  · intro state size hstate
    rw [readTlsAppdata_ended hstate]
    rfl

/-! ## Reading until nothing is returned -/

/-- A read takes what it returns off the stream. -/
theorem length_readTlsAppdata_le {bufLen : Nat} {source : Source UInt8}
    (hread : (readTlsAppdata bufLen source).1 ≠ []) :
    (readTlsAppdata bufLen source).1.length + (readTlsAppdata bufLen source).2.elements.length ≤
      source.elements.length := by
  fun_induction readTlsAppdata bufLen source with
  | case1 source rest hheader => exact absurd rfl hread
  | case2 source header rest hheader hlong => exact absurd rfl hread
  | case3 source header rest hheader hfits htype after hpayload => exact absurd rfl hread
  | case4 source header rest hheader hfits htype payload after hpayload =>
      obtain ⟨hsource, -⟩ := Source.elements_of_readExact hheader
      obtain ⟨hrest, -⟩ := Source.elements_of_readExact hpayload
      change payload.length + after.elements.length ≤ _
      rw [hsource, hrest, List.length_append, List.length_append]
      omega
  | case5 source header rest hheader hfits hother htype after hpayload => exact absurd rfl hread
  | case6 source header rest hheader hfits hother htype payload after hpayload ih =>
      obtain ⟨hsource, -⟩ := Source.elements_of_readExact hheader
      obtain ⟨hrest, -⟩ := Source.elements_of_readExact hpayload
      have hle := ih hread
      rw [hsource, hrest, List.length_append, List.length_append]
      omega
  | case7 source header rest hheader hfits hother hunknown => exact absurd rfl hread

/-- The loop of a bridge: it ends with the first read that returns nothing. -/
def readUntilZero (bufLen : Nat) (source : Source UInt8) : Bytes × Source UInt8 :=
  let read := readTlsAppdata bufLen source
  if hread : read.1 = [] then ([], read.2)
  else
    let rest := readUntilZero bufLen read.2
    (read.1 ++ rest.1, rest.2)
termination_by source.elements.length
decreasing_by
  have hle := length_readTlsAppdata_le hread
  have hpos : 0 < (readTlsAppdata bufLen source).1.length := List.length_pos_of_ne_nil hread
  omega

theorem readUntilZero_of_nil {bufLen : Nat} {source rest : Source UInt8}
    (hread : readTlsAppdata bufLen source = ([], rest)) :
    readUntilZero bufLen source = ([], rest) := by
  rw [readUntilZero, hread]
  rfl

theorem readUntilZero_of_ne_nil {bufLen : Nat} {source rest : Source UInt8} {chunk : Bytes}
    (hread : readTlsAppdata bufLen source = (chunk, rest)) (hchunk : chunk ≠ []) :
    readUntilZero bufLen source =
      (chunk ++ (readUntilZero bufLen rest).1, (readUntilZero bufLen rest).2) := by
  rw [readUntilZero, hread]
  exact dif_neg hchunk

theorem readUntilZero_congr {bufLen : Nat} {source other : Source UInt8}
    (hread : readTlsAppdata bufLen source = readTlsAppdata bufLen other) :
    readUntilZero bufLen source = readUntilZero bufLen other := by
  rcases hother : readTlsAppdata bufLen other with ⟨chunk, rest⟩
  rw [hother] at hread
  by_cases hchunk : chunk = []
  · subst hchunk
    rw [readUntilZero_of_nil hread, readUntilZero_of_nil hother]
  · rw [readUntilZero_of_ne_nil hread hchunk, readUntilZero_of_ne_nil hother hchunk]

/-- A record as any peer may send it after the handshake: ApplicationData, empty or
not, or a ChangeCipherSpec. -/
structure Sendable (limit : Nat) (record : Record) : Prop where
  kind : record.recordType = tlsRecordApplicationData ∨
    record.recordType = tlsRecordChangeCipherSpec
  length_le : record.payload.length ≤ limit

/-- ApplicationData without any payload. -/
def Record.Vacant (record : Record) : Prop :=
  record.recordType = tlsRecordApplicationData ∧ record.payload = []

instance (record : Record) : Decidable record.Vacant := inferInstanceAs (Decidable (_ ∧ _))

/-- The loop stops behind the first empty ApplicationData record, wherever it is. -/
theorem readUntilZero_wire {bufLen : Nat} {source : Source UInt8} {before : List Record}
    {back : Bytes} (hbefore : ∀ record ∈ before, Sendable bufLen record ∧ ¬ record.Vacant)
    (hsource : source.elements = wire before ++ back) :
    ∃ rest, Source.elements rest = back ∧
      readUntilZero bufLen source =
        (content before ++ (readUntilZero bufLen rest).1, (readUntilZero bufLen rest).2) := by
  induction before generalizing source with
  | nil => exact ⟨source, hsource, rfl⟩
  | cons record before ih =>
      obtain ⟨⟨hrecord, hvacant⟩, hbefore⟩ := List.forall_mem_cons.mp hbefore
      rw [wire, List.flatMap_cons, List.append_assoc] at hsource
      rcases hrecord.kind with htype | htype
      · obtain ⟨middle, hread, hmiddle⟩ :=
          readTlsAppdata_applicationData hsource htype hrecord.length_le
        obtain ⟨rest, hrest, hloop⟩ := ih hbefore hmiddle
        refine ⟨rest, hrest, ?_⟩
        have hpayload : record.payload ≠ [] := fun hnil => hvacant ⟨htype, hnil⟩
        rw [readUntilZero_of_ne_nil hread hpayload, hloop,
          content_cons_of_applicationData before htype, List.append_assoc]
      · obtain ⟨middle, hread, hmiddle⟩ :=
          readTlsAppdata_changeCipherSpec hsource htype hrecord.length_le
        obtain ⟨rest, hrest, hloop⟩ := ih hbefore hmiddle
        refine ⟨rest, hrest, ?_⟩
        rw [readUntilZero_congr hread, hloop, content_cons_of_changeCipherSpec before htype]

theorem readUntilZero_ended {bufLen : Nat} {source : Source UInt8}
    (hsource : source.elements = []) : readUntilZero bufLen source = ([], []) :=
  readUntilZero_of_nil (readTlsAppdata_ended hsource)

theorem readUntilZero_vacant {bufLen : Nat} {source : Source UInt8} {record : Record}
    {back : Bytes} (hsource : source.elements = record.encode ++ back) (hvacant : record.Vacant) :
    ∃ rest, readUntilZero bufLen source = ([], rest) ∧ Source.elements rest = back := by
  obtain ⟨htype, hpayload⟩ := hvacant
  obtain ⟨rest, hread, hrest⟩ :=
    @readTlsAppdata_applicationData bufLen source record back hsource htype (by simp [hpayload])
  rw [hpayload] at hread
  exact ⟨rest, readUntilZero_of_nil hread, hrest⟩

/-- A stream without empty ApplicationData, or cut at the first one. -/
theorem exists_first_vacant (records : List Record) :
    (∀ record ∈ records, ¬ record.Vacant) ∨
      ∃ before record after, records = before ++ record :: after ∧ record.Vacant ∧
        ∀ record ∈ before, ¬ record.Vacant := by
  induction records with
  | nil => exact .inl fun _ hmem => (List.not_mem_nil hmem).elim
  | cons head records ih =>
      by_cases hhead : head.Vacant
      · exact .inr ⟨[], head, records, rfl, hhead, fun _ hmem => (List.not_mem_nil hmem).elim⟩
      · rcases ih with hnone | ⟨before, record, after, rfl, hvacant, hbefore⟩
        · exact .inl (List.forall_mem_cons.mpr ⟨hhead, hnone⟩)
        · exact .inr ⟨head :: before, record, after, rfl, hvacant,
            List.forall_mem_cons.mpr ⟨hhead, hbefore⟩⟩

theorem content_append (first second : List Record) :
    content (first ++ second) = content first ++ content second := List.flatMap_append

theorem wire_eq_nil {records : List Record} : wire records = [] ↔ records = [] := by
  cases records with
  | nil => exact ⟨fun _ => rfl, fun _ => rfl⟩
  | cons record records =>
      refine ⟨fun hwire => ?_, fun hnil => (List.cons_ne_nil _ _ hnil).elim⟩
      rw [wire, List.flatMap_cons, Record.encode, Record.header] at hwire
      cases hwire

/-- What follows another empty ApplicationData record follows the first one too. -/
theorem after_first_vacant {before after first last : List Record} {vacant other : Record}
    (hbefore : ∀ record ∈ before, ¬ record.Vacant) (hother : other.Vacant)
    (hsplit : before ++ vacant :: after = first ++ other :: last) :
    ∃ more, after = more ++ last := by
  rcases List.append_eq_append_iff.mp hsplit with ⟨middle, -, hafter⟩ | ⟨middle, hmiddle, hlast⟩
  · cases middle with
    | nil =>
        cases hafter
        exact ⟨[], rfl⟩
    | cons head middle =>
        cases hafter
        exact ⟨middle ++ [other], by simp⟩
  · cases middle with
    | nil =>
        cases hlast
        exact ⟨[], rfl⟩
    | cons head middle =>
        cases hlast
        exact absurd hother (hbefore other (by simp [hmiddle]))

/-- A bridge hears everything exactly when no payload follows an empty ApplicationData
record, and it has read to the end of the stream exactly when no record follows
one. -/
theorem readUntilZero_complete_iff {bufLen : Nat} {records : List Record} {source : Source UInt8}
    (hrecords : ∀ record ∈ records, Sendable bufLen record)
    (hsource : source.elements = wire records) :
    ((readUntilZero bufLen source).1 = content records ↔
      ∀ before vacant after, records = before ++ vacant :: after → vacant.Vacant →
        content after = []) ∧
    (Source.elements (readUntilZero bufLen source).2 = [] ↔
      ∀ before vacant after, records = before ++ vacant :: after → vacant.Vacant →
        after = []) := by
  rcases exists_first_vacant records with hnone | ⟨before, vacant, after, rfl, hvacant, hbefore⟩
  · have hcut : ∀ before vacant after, records = before ++ vacant :: after → ¬ vacant.Vacant := by
      rintro before vacant after rfl
      exact hnone vacant (by simp)
    obtain ⟨rest, hrest, hloop⟩ := @readUntilZero_wire bufLen source records []
      (fun record hmem => ⟨hrecords record hmem, hnone record hmem⟩) (by simpa using hsource)
    rw [hloop, readUntilZero_ended hrest]
    refine ⟨⟨fun _ before vacant after hsplit hvacant => ?_, fun _ => List.append_nil _⟩,
      ⟨fun _ before vacant after hsplit hvacant => ?_, fun _ => rfl⟩⟩
    · exact absurd hvacant (hcut before vacant after hsplit)
    · exact absurd hvacant (hcut before vacant after hsplit)
  · have hfront : ∀ record ∈ before, Sendable bufLen record ∧ ¬ record.Vacant := fun record hmem =>
      ⟨hrecords record (List.mem_append_left _ hmem), hbefore record hmem⟩
    rw [wire, List.flatMap_append, List.flatMap_cons] at hsource
    obtain ⟨middle, hmiddle, hloop⟩ := readUntilZero_wire hfront hsource
    obtain ⟨rest, hstop, hrest⟩ :=
      @readUntilZero_vacant bufLen middle vacant (wire after) hmiddle hvacant
    rw [hloop, hstop, hrest, wire_eq_nil, List.append_nil, content_append,
      content_cons_of_applicationData after hvacant.1, hvacant.2, List.nil_append]
    refine ⟨⟨fun hall first other last hsplit hother => ?_, fun hall => ?_⟩,
      ⟨fun hall first other last hsplit hother => ?_,
        fun hall => hall before vacant after rfl hvacant⟩⟩
    · obtain ⟨more, rfl⟩ := after_first_vacant hbefore hother hsplit
      have hnil : content (more ++ last) = [] := List.self_eq_append_right.mp hall
      rw [content_append] at hnil
      exact (List.append_eq_nil_iff.mp hnil).2
    · rw [hall before vacant after rfl hvacant, List.append_nil]
    · obtain ⟨more, rfl⟩ := after_first_vacant hbefore hother hsplit
      exact (List.append_eq_nil_iff.mp hall).2

/-- ApplicationData of the given payload, if it fits. -/
def appdataRecord (payload : Bytes) (hfits : payload.length < 2 ^ 16) : Record :=
  ⟨tlsRecordApplicationData, tlsVersion12, payload, hfits⟩

theorem appdataRecord_sendable {limit : Nat} {payload : Bytes} (hfits : payload.length < 2 ^ 16)
    (hle : payload.length ≤ limit) : Sendable limit (appdataRecord payload hfits) :=
  ⟨.inl rfl, hle⟩

theorem changeCipherSpec_fits : List.length ([1] : Bytes) < 2 ^ 16 := by decide

/-- Payloads with a ChangeCipherSpec between them, and an empty record at the end. -/
def spacedRecords : List Record :=
  [appdataRecord [1, 2] (by decide),
    ⟨tlsRecordChangeCipherSpec, tlsVersion12, [1], changeCipherSpec_fits⟩,
    appdataRecord [3] (by decide), appdataRecord [] (by decide)]

/-- The records arrive in two pieces; everything is heard, and nothing is left. -/
theorem readUntilZero_complete_spacedRecords :
    let source : Source UInt8 := [(wire spacedRecords).take 4, (wire spacedRecords).drop 4]
    (readUntilZero 16 source).1 = [1, 2, 3] ∧
      Source.elements (readUntilZero 16 source).2 = [] := by
  intro source
  have hsource : source.elements = wire spacedRecords := by simp [source, Source.elements]
  have hrecords : ∀ record ∈ spacedRecords, Sendable 16 record := by
    simp only [spacedRecords, List.forall_mem_cons]
    exact ⟨appdataRecord_sendable _ (by decide), ⟨.inr rfl, by decide⟩,
      appdataRecord_sendable _ (by decide), appdataRecord_sendable _ (by decide),
      fun _ hmem => (List.not_mem_nil hmem).elim⟩
  -- Only the last record is empty ApplicationData.
  have hlast : ∀ before vacant after, spacedRecords = before ++ vacant :: after →
      vacant.Vacant → after = [] := by
    rintro (_ | ⟨_, _ | ⟨_, _ | ⟨_, before⟩⟩⟩) vacant after hsplit hvacant
    · cases hsplit
      cases hvacant.2
    · cases hsplit
      cases hvacant.2
    · cases hsplit
      cases hvacant.2
    · cases before with
      | nil =>
          cases hsplit
          rfl
      | cons _ before => cases before <;> cases hsplit
  obtain ⟨hheard, hexhausted⟩ := readUntilZero_complete_iff hrecords hsource
  refine ⟨(hheard.mpr fun before vacant after hsplit hvacant => ?_).trans rfl,
    hexhausted.mpr hlast⟩
  rw [hlast before vacant after hsplit hvacant]
  rfl

/-- An empty ApplicationData record ends the session of the bridges, whose buffer has
room for any record, with the byte after it still to come. -/
theorem readUntilZero_misses_byte_after_vacant :
    Sendable (tlsMaxRecordPayload + tlsReadHeadroom) (appdataRecord [] (by decide)) ∧
      Sendable (tlsMaxRecordPayload + tlsReadHeadroom) (appdataRecord [0x2a] (by decide)) ∧
      (readUntilZero (tlsMaxRecordPayload + tlsReadHeadroom)
        [wire [appdataRecord [] (by decide), appdataRecord [0x2a] (by decide)]]).1 = [] ∧
      Source.elements (readUntilZero (tlsMaxRecordPayload + tlsReadHeadroom)
        [wire [appdataRecord [] (by decide), appdataRecord [0x2a] (by decide)]]).2 =
          (appdataRecord [0x2a] (by decide)).encode := by
  obtain ⟨rest, hstop, hrest⟩ := @readUntilZero_vacant (tlsMaxRecordPayload + tlsReadHeadroom)
    [wire [appdataRecord [] (by decide), appdataRecord [0x2a] (by decide)]]
    (appdataRecord [] (by decide)) (appdataRecord [0x2a] (by decide)).encode rfl ⟨rfl, rfl⟩
  rw [hstop]
  exact ⟨appdataRecord_sendable _ (by decide), appdataRecord_sendable _ (by decide), rfl, hrest⟩

end TgWsProxy.FakeTls
