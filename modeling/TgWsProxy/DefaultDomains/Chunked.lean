import TgWsProxy.DefaultDomains.Http

/-!
# Chunked bodies

The chunked encoding of a body, in every spelling that a server may choose, and that the
reader undoes it however the bytes arrive. The one exception is the limit on trailers: it
counts the CR of the final line, so that trailers just below the limit are accepted or
refused depending on where a read ends.
-/

namespace TgWsProxy.DefaultDomains

open Foundation
open Foundation.Machine (PointerWidth)
open Foundation.Stateful
open Foundation.Stream (Source)
open Outbound (Stop orErr)

/-! ## The encoding -/

/-- A line that gives a size in hexadecimal digits, in any case and with any leading zeros,
and after a semicolon possibly an extension. -/
structure SizeLine (size : Nat) where
  digits : Text
  extension : Option Text
  nonempty : digits ≠ []
  value : Text.digitsValue 16 0 digits = some size
  unbroken : ∀ text, extension = some text → ¬ crlf <:+: Text.bytes text

def SizeLine.text {size : Nat} (line : SizeLine size) : Text :=
  line.digits ++ line.extension.elim [] (';' :: ·)

def SizeLine.bytes {size : Nat} (line : SizeLine size) : List UInt8 := Text.bytes line.text

structure Chunk where
  data : List UInt8
  nonempty : data ≠ []
  line : SizeLine data.length

def Chunk.bytes (chunk : Chunk) : List UInt8 := chunk.line.bytes ++ (crlf ++ (chunk.data ++ crlf))

/-- A trailer, without the end of its line. -/
structure Trailer where
  bytes : List UInt8
  nonempty : bytes ≠ []
  unbroken : ¬ crlf <:+: bytes

/-- A body in the chunked encoding. -/
structure Encoding where
  chunks : List Chunk
  last : SizeLine 0
  trailers : List Trailer

namespace Encoding

variable (encoding : Encoding)

def body : List UInt8 := encoding.chunks.flatMap Chunk.data

def chunkBytes : List UInt8 := encoding.chunks.flatMap Chunk.bytes

/-- The lines of the trailers, each with its end. -/
def trailerBytes : List UInt8 := encoding.trailers.flatMap fun trailer => trailer.bytes ++ crlf

def bytes : List UInt8 :=
  encoding.chunkBytes ++ (encoding.last.bytes ++ (crlf ++ (encoding.trailerBytes ++ crlf)))

end Encoding

/-! ## Size lines -/

theorem length_crlf : crlf.length = 2 := rfl

theorem crlf_not_within_nil : ¬ crlf <:+: [] :=
  fun hwithin => crlf_ne_nil (List.infix_nil.mp hwithin)

theorem bytes_append (left right : Text) :
    Text.bytes (left ++ right) = Text.bytes left ++ Text.bytes right :=
  List.flatMap_append

/-- A pair whose first element is not in front of a list is not there with the front either. -/
theorem not_infix_append {α : Type} {a b : α} {front back : List α} (hfront : a ∉ front)
    (hback : ¬ [a, b] <:+: back) : ¬ [a, b] <:+: front ++ back := by
  induction front with
  | nil => exact hback
  | cons first front ih =>
      rw [List.mem_cons, not_or] at hfront
      rw [List.cons_append, List.infix_cons_iff, not_or]
      refine ⟨?_, ih hfront.2⟩
      intro hhere
      exact hfront.1 (List.cons_prefix_cons.mp hhere).1

section SizeLine

variable {size : Nat} (line : SizeLine size)

theorem SizeLine.ne_of_mem_digits {c other : Char} (hmem : c ∈ line.digits)
    (hother : other.toNat < 48 ∨ other.toNat = 59) : c ≠ other := by
  rintro rfl
  obtain ⟨digit, hdigit⟩ := Text.exists_toDigit_of_digitsValue line.value c hmem
  have hletter := Text.letter_of_toDigit hdigit
  omega

theorem SizeLine.unbroken_bytes : ¬ crlf <:+: line.bytes := by
  rw [SizeLine.bytes, SizeLine.text, bytes_append]
  apply not_infix_append
  · intro hmem
    obtain ⟨c, hc, hbyte⟩ := List.mem_flatMap.mp hmem
    have hreturn : c = '\r' := Text.eq_of_mem_utf8EncodeChar (by decide) hbyte
    exact line.ne_of_mem_digits hc (.inl (by decide)) hreturn
  · cases hextension : line.extension with
    | none => exact crlf_not_within_nil
    | some text =>
        have hbytes : Text.bytes (';' :: text) = [59] ++ Text.bytes text := rfl
        rw [Option.elim_some, hbytes]
        exact not_infix_append (by decide) (line.unbroken text hextension)

theorem chunkSize_bytes {width : PointerWidth} (hsize : size ≤ maxBodyBytes) :
    chunkSize width line.bytes = .ok size := by
  have htext : Text.fromUtf8 line.bytes = some line.text := Text.fromUtf8_eq_some_iff.mpr rfl
  have hdigits : line.text.takeWhile (· != ';') = line.digits := by
    rw [SizeLine.text, List.takeWhile_append_of_pos]
    · cases line.extension <;> simp
    · intro c hc
      exact bne_iff_ne.mpr (line.ne_of_mem_digits hc (.inr rfl))
  have hmax := hsize.trans (maxBodyBytes_lt_usizeMax width).le
  rw [chunkSize, htext]
  change orErr _ (Text.parseUnsigned 16 _ (Text.trim (line.text.takeWhile _))) = _
  rw [hdigits, Text.trim_of_digitsValue line.value,
    Text.parseUnsigned_of_digitsValue (by decide) hmax line.nonempty line.value]
  rfl

end SizeLine

/-! ## Input that arrives -/

/-- An invariant that fixes the content, and that lasts while the buffer grows to the
target. -/
structure Steady (content : List UInt8) (target : Nat) (invariant : Reader → Prop) : Prop where
  within : target ≤ content.length
  bound : target ≤ maxBodyBytes
  content : ∀ reader, invariant reader → reader.content = content
  grown : ∀ start reader, invariant start → start.buf.length < target →
    Grown .body maxBodyBytes start reader → invariant reader
  recorded : ∀ reader events, invariant reader → invariant { reader with events }

section Steady

variable {content rest : List UInt8} {target pos : Nat} {invariant : Reader → Prop}
  {width : PointerWidth}

/-- What the reader waits for arrives, if it is in the content before the target. -/
theorem await_arrives {β : Type} {probe : List UInt8 → Except Stop (Option β)} (value : β)
    {place : Nat} {fails : Stop → Reader → Prop} (hsteady : Steady content target invariant)
    (hplace : place ≤ target)
    (hprobe : ∀ reader, invariant reader → pos ≤ reader.buf.length →
      probe reader.buf = .ok (if place ≤ reader.buf.length then some value else none)) :
    Triple (fun reader => invariant reader ∧ pos ≤ reader.buf.length)
      (await .body maxBodyBytes probe)
      (fun found reader => found = value ∧ invariant reader ∧ place ≤ reader.buf.length)
      fails := by
  apply await_triple
  · rintro reader found ⟨hreader, hpos⟩ hfound
    rw [hprobe reader hreader hpos] at hfound
    split at hfound
    next hthere =>
      cases hfound
      exact ⟨rfl, hreader, hthere⟩
    next => cases hfound
  · rintro reader stop ⟨hreader, hpos⟩ hstop
    rw [hprobe reader hreader hpos] at hstop
    cases hstop
  · rintro start reader ⟨hstart, hpos⟩ hnone hgrown
    rw [hprobe start hstart hpos] at hnone
    split at hnone
    next => cases hnone
    next hmissing =>
      refine ⟨hsteady.grown start reader hstart (by omega) hgrown, ?_⟩
      exact hpos.trans hgrown.buf.length_le
  · rintro start reader message ⟨hstart, hpos⟩ hnone _ hreason
    -- The buffer is not full, and the stream has not ended.
    rw [hprobe start hstart hpos] at hnone
    split at hnone
    next => cases hnone
    next hmissing =>
      have hlength := congrArg List.length (hsteady.content start hstart)
      have hwithin := hsteady.within
      have hbound := hsteady.bound
      rw [Reader.content, List.length_append] at hlength
      unfold Reader.pending at hreason
      omega

/-- The end of a line is seen as soon as it has arrived. -/
theorem lineEnd_of_content {line : List UInt8} {reader : Reader}
    (hcontent : reader.content.drop pos = line ++ (crlf ++ rest)) (hline : ¬ crlf <:+: line)
    (hfits : line.length + pos < 2 ^ 32) (hpos : pos ≤ reader.buf.length) :
    lineEnd width pos reader.buf =
      .ok (if line.length + pos + 2 ≤ reader.buf.length then some (line.length + pos)
        else none) := by
  have hposition : Window.position crlf (reader.content.drop pos) = some line.length := by
    rw [hcontent]
    exact Window.position_append_pair (by decide) hline
  have hbuf : reader.buf.drop pos <+: reader.content.drop pos :=
    (List.prefix_append _ _).drop pos
  have hfound := Window.position_beginning crlf_ne_nil hbuf hposition
  have hthere : line.length + crlf.length ≤ (reader.buf.drop pos).length ↔
      line.length + pos + 2 ≤ reader.buf.length := by
    rw [List.length_drop]
    change line.length + 2 ≤ _ ↔ _
    omega
  simp only [hthere] at hfound
  rw [lineEnd_eq hpos, hfound]
  · split <;> rfl
  · intro index hindex
    rw [hfound] at hindex
    split at hindex
    next =>
      cases hindex
      exact hfits
    next => cases hindex

theorem lineEnd_arrives {size : Nat} (line : SizeLine size) {fails : Stop → Reader → Prop}
    (hsteady : Steady content target invariant)
    (hcontent : content.drop pos = line.bytes ++ (crlf ++ rest))
    (hplace : line.bytes.length + pos + 2 ≤ target) :
    Triple (fun reader => invariant reader ∧ pos ≤ reader.buf.length)
      (await .body maxBodyBytes (lineEnd width pos))
      (fun found reader => found = line.bytes.length + pos ∧ invariant reader ∧
        line.bytes.length + pos + 2 ≤ reader.buf.length) fails := by
  apply await_arrives _ hsteady hplace
  intro reader hreader hpos
  rw [← hsteady.content reader hreader] at hcontent
  have hbound : target ≤ 262144 := hsteady.bound
  exact lineEnd_of_content hcontent line.unbroken_bytes (by omega) hpos

theorem drop_of_content {front : List UInt8} (hcontent : content.drop pos = front ++ rest) :
    content.drop (pos + front.length) = rest := by
  rw [← List.drop_drop, hcontent, List.drop_left]

/-- What has arrived of the content is in the buffer. -/
theorem take_drop_of_content {front : List UInt8} {reader : Reader}
    (hcontent : reader.content.drop pos = front ++ rest)
    (hthere : pos + front.length ≤ reader.buf.length) :
    (reader.buf.drop pos).take front.length = front := by
  have hlength : front.length ≤ (reader.buf.drop pos).length := by
    rw [List.length_drop]
    omega
  rw [Reader.content, List.drop_append_of_le_length (by omega)] at hcontent
  have htake := congrArg (List.take front.length) hcontent
  rwa [List.take_append_of_le_length hlength, List.take_left] at htake

/-- A size line is read, whatever its spelling. -/
theorem readSizeLine_arrives {size : Nat} (line : SizeLine size) {fails : Stop → Reader → Prop}
    (hsteady : Steady content target invariant)
    (hcontent : content.drop pos = line.bytes ++ (crlf ++ rest))
    (hplace : line.bytes.length + pos + 2 ≤ target) (hsize : size ≤ maxBodyBytes) :
    Triple (fun reader => invariant reader ∧ pos ≤ reader.buf.length) (readSizeLine width pos)
      (fun sized reader => sized = (size, line.bytes.length + pos + 2) ∧ invariant reader ∧
        line.bytes.length + pos + 2 ≤ reader.buf.length) fails := by
  have hbound : target ≤ 262144 := hsteady.bound
  refine Triple.bind _ (lineEnd_arrives line hsteady hcontent hplace) ?_
  intro place
  apply Triple.get_bind
  rintro reader ⟨rfl, hreader, hthere⟩
  have hline : sliceOf reader.buf pos (line.bytes.length + pos) = .ok line.bytes := by
    rw [← hsteady.content reader hreader] at hcontent
    rw [sliceOf_eq_ok_iff, List.drop_take, Nat.add_sub_cancel]
    exact ⟨Nat.le_add_left _ _, by omega, (take_drop_of_content hcontent (by omega)).symm⟩
  apply Triple.ofExcept_bind_ok hline
  apply Triple.ofExcept_bind_ok (chunkSize_bytes line hsize)
  apply Triple.ofExcept_bind_ok (usizeAdd_of_lt (by omega))
  apply Triple.pure
  rintro _ rfl
  exact ⟨rfl, hreader, hthere⟩

theorem chunkArrived_arrives {size : Nat} {fails : Stop → Reader → Prop}
    (hsteady : Steady content target invariant) (hplace : pos + size + 2 ≤ target) :
    Triple (fun reader => invariant reader ∧ pos ≤ reader.buf.length)
      (await .body maxBodyBytes (chunkArrived width pos size))
      (fun _ reader => invariant reader ∧ pos + size + 2 ≤ reader.buf.length) fails := by
  have hbound : target ≤ 262144 := hsteady.bound
  refine (await_arrives () hsteady hplace ?_).leaving fun _ _ hfound => hfound.2
  intro reader _ _
  rw [chunkArrived_eq (by omega), arrived]
  simp only [← Nat.not_le, ite_not]

/-- The data of a chunk is taken from the buffer. -/
theorem takeChunk_data {data decoded : List UInt8} {fails : Stop → Reader → Prop}
    (hsteady : Steady content target invariant)
    (hcontent : content.drop pos = data ++ (crlf ++ rest))
    (hplace : pos + data.length + 2 ≤ target) :
    Triple (fun reader => invariant reader ∧ pos + data.length + 2 ≤ reader.buf.length)
      (takeChunk width pos data.length decoded)
      (fun next reader => next = (pos + (data.length + 2), decoded ++ data) ∧ invariant reader ∧
        pos + (data.length + 2) ≤ reader.buf.length) fails := by
  have hbound : target ≤ 262144 := hsteady.bound
  apply takeChunk_triple (by omega) fun _ hreader => hreader.2
  · rintro reader taken ⟨hreader, hthere⟩ rfl _
    rw [← hsteady.content reader hreader] at hcontent
    rw [take_drop_of_content hcontent (by omega)]
    refine ⟨rfl, hsteady.recorded reader _ hreader, ?_⟩
    change pos + (data.length + 2) ≤ reader.buf.length
    omega
  · rintro reader taken message ⟨hreader, hthere⟩ _ hending
    rw [← hsteady.content reader hreader] at hcontent
    exact (hending (take_drop_of_content (drop_of_content hcontent) hthere)).elim

/-- One round of the loop decodes one chunk. -/
theorem chunkRound_chunk (chunk : Chunk) {decoded : List UInt8} {fails : Stop → Reader → Prop}
    (hsteady : Steady content target invariant)
    (hcontent : content.drop pos = chunk.bytes ++ rest)
    (hplace : pos + chunk.bytes.length ≤ target) (hdecoded : decoded.length ≤ pos) :
    Triple (fun reader => invariant reader ∧ pos ≤ reader.buf.length)
      (chunkRound width (pos, decoded))
      (fun next reader => next = .inl (pos + chunk.bytes.length, decoded ++ chunk.data) ∧
        invariant reader ∧ pos + chunk.bytes.length ≤ reader.buf.length) fails := by
  have hbound : target ≤ 262144 := hsteady.bound
  have hlength : chunk.bytes.length = chunk.line.bytes.length + 2 + (chunk.data.length + 2) := by
    simp only [Chunk.bytes, List.length_append, length_crlf]
    omega
  have hdata := List.length_pos_of_ne_nil chunk.nonempty
  have hfits : ¬ maxBodyBytes < width.saturatingAdd decoded.length chunk.data.length :=
    not_maxBodyBytes_lt_saturatingAdd.mpr (by unfold maxBodyBytes; omega)
  simp only [Chunk.bytes, List.append_assoc] at hcontent
  have hstart : content.drop (chunk.line.bytes.length + pos + 2) =
      chunk.data ++ (crlf ++ rest) := by
    have hbehind := drop_of_content (drop_of_content hcontent)
    rwa [length_crlf, Nat.add_comm pos] at hbehind
  refine Triple.bind _ (readSizeLine_arrives chunk.line hsteady hcontent (by omega)
    (by unfold maxBodyBytes; omega)) ?_
  intro sized
  apply Triple.assuming fun _ hsized => hsized.1
  rintro rfl
  rw [readSized, if_neg (by omega), if_neg hfits]
  refine Triple.bind _ ((chunkArrived_arrives hsteady (by omega)).entering
    fun _ hsized => hsized.2) fun _ => ?_
  refine Triple.bind _ (takeChunk_data hsteady hstart (by omega)) fun next => .pure ?_
  rintro after ⟨rfl, hafter, hend⟩
  have hnext : chunk.line.bytes.length + pos + 2 + (chunk.data.length + 2) =
      pos + chunk.bytes.length := by omega
  rw [hnext] at hend ⊢
  exact ⟨rfl, hafter, hend⟩

/-- The loop goes through the chunks, up to what comes after them. -/
theorem chunks_triple {chunks : List Chunk} {decoded : List UInt8}
    {returns : List UInt8 → Reader → Prop} {fails : Stop → Reader → Prop}
    (hsteady : Steady content target invariant)
    (hcontent : content.drop pos = chunks.flatMap Chunk.bytes ++ rest)
    (hplace : pos + (chunks.flatMap Chunk.bytes).length ≤ target)
    (hdecoded : decoded.length ≤ pos)
    (hlast : Triple
      (fun reader => invariant reader ∧
        pos + (chunks.flatMap Chunk.bytes).length ≤ reader.buf.length)
      (loop (chunkRound width) _ (chunkRound_descends width)
        (pos + (chunks.flatMap Chunk.bytes).length, decoded ++ chunks.flatMap Chunk.data))
      returns fails) :
    Triple (fun reader => invariant reader ∧ pos ≤ reader.buf.length)
      (loop (chunkRound width) _ (chunkRound_descends width) (pos, decoded)) returns fails := by
  induction chunks generalizing pos decoded with
  | nil =>
      rw [List.flatMap_nil, List.flatMap_nil, List.append_nil] at hlast
      exact hlast
  | cons chunk chunks ih =>
      simp only [List.flatMap_cons, List.length_append, ← List.append_assoc, ← Nat.add_assoc]
        at hcontent hplace hlast
      rw [List.append_assoc] at hcontent
      rw [loop_eq]
      refine Triple.bind _ (chunkRound_chunk chunk hsteady hcontent (by omega) hdecoded) ?_
      intro next
      apply Triple.assuming fun _ hnext => hnext.1
      rintro rfl
      have hgrowing : (decoded ++ chunk.data).length ≤ pos + chunk.bytes.length := by
        simp only [Chunk.bytes, List.length_append]
        omega
      exact (ih (drop_of_content hcontent) hplace hgrowing hlast).entering fun _ hnext => hnext.2

/-! ## Trailers -/

/-- The next line of the trailers, while the limit does not stop the reader before it. -/
theorem trailerLineEnd_arrives {trailerStart : Nat} {line : List UInt8}
    {fails : Stop → Reader → Prop} (hsteady : Steady content target invariant)
    (hroom : ∀ reader, invariant reader → reader.buf.length < target →
      reader.buf.length < trailerStart + maxHeaderBytes)
    (hcontent : content.drop pos = line ++ (crlf ++ rest)) (hline : ¬ crlf <:+: line)
    (hplace : line.length + pos + 2 ≤ target) (hstart : trailerStart ≤ pos) :
    Triple (fun reader => invariant reader ∧ pos ≤ reader.buf.length)
      (await .body maxBodyBytes (trailerLineEnd width trailerStart pos))
      (fun found reader => found = line.length + pos ∧ invariant reader ∧
        line.length + pos + 2 ≤ reader.buf.length) fails := by
  apply await_arrives _ hsteady hplace
  intro reader hreader hpos
  rw [← hsteady.content reader hreader] at hcontent
  have hbound : target ≤ 262144 := hsteady.bound
  rw [trailerLineEnd, lineEnd_of_content hcontent hline (by omega) hpos]
  change refuseFrom _ _ _ _ = _
  split
  next => rfl
  next hmissing =>
    have hshort := hroom reader hreader (by omega)
    exact if_neg (by omega)

theorem trailers_triple {trailerStart : Nat} {trailers : List Trailer}
    {returns : Unit → Reader → Prop} {fails : Stop → Reader → Prop}
    (hsteady : Steady content target invariant)
    (hroom : ∀ reader, invariant reader → reader.buf.length < target →
      reader.buf.length < trailerStart + maxHeaderBytes)
    (hcontent : content.drop pos =
      (trailers.flatMap fun trailer => trailer.bytes ++ crlf) ++ rest)
    (hplace : pos + (trailers.flatMap fun trailer => trailer.bytes ++ crlf).length ≤ target)
    (hstart : trailerStart ≤ pos)
    (hlast : Triple
      (fun reader => invariant reader ∧
        pos + (trailers.flatMap fun trailer => trailer.bytes ++ crlf).length ≤ reader.buf.length)
      (loop (trailerRound width trailerStart) _ (trailerRound_descends width trailerStart)
        (pos + (trailers.flatMap fun trailer => trailer.bytes ++ crlf).length))
      returns fails) :
    Triple (fun reader => invariant reader ∧ pos ≤ reader.buf.length)
      (loop (trailerRound width trailerStart) _ (trailerRound_descends width trailerStart) pos)
      returns fails := by
  induction trailers generalizing pos with
  | nil => exact hlast
  | cons trailer trailers ih =>
      have hbound : target ≤ 262144 := hsteady.bound
      have hne := List.length_pos_of_ne_nil trailer.nonempty
      simp only [List.flatMap_cons, List.length_append, ← Nat.add_assoc, List.append_assoc,
        length_crlf] at hcontent hplace hlast
      rw [loop_eq]
      refine Triple.bind (fun next reader => next = .inl (pos + trailer.bytes.length + 2) ∧
        invariant reader ∧ pos + trailer.bytes.length + 2 ≤ reader.buf.length) ?_ ?_
      · refine Triple.bind _ (trailerLineEnd_arrives hsteady hroom hcontent trailer.unbroken
          (by omega) hstart) ?_
        intro place
        apply Triple.assuming fun _ hfound => hfound.1
        rintro rfl
        rw [if_neg (by omega)]
        apply Triple.ofExcept_bind_ok (usizeAdd_of_lt (by omega))
        apply Triple.pure
        rintro reader ⟨-, hreader, hthere⟩
        rw [Nat.add_comm trailer.bytes.length pos] at hthere ⊢
        exact ⟨rfl, hreader, hthere⟩
      · intro next
        apply Triple.assuming fun _ hnext => hnext.1
        rintro rfl
        have hbehind := drop_of_content (drop_of_content hcontent)
        exact (ih hbehind hplace (by omega) hlast).entering fun _ hnext => hnext.2

/-- The round of the last size line goes on with the trailers. -/
theorem loop_last (line : SizeLine 0) {decoded : List UInt8}
    {returns : List UInt8 → Reader → Prop} {fails : Stop → Reader → Prop}
    (hsteady : Steady content target invariant)
    (hcontent : content.drop pos = line.bytes ++ (crlf ++ rest))
    (hplace : line.bytes.length + pos + 2 ≤ target)
    (htrailers : Triple
      (fun reader => invariant reader ∧ line.bytes.length + pos + 2 ≤ reader.buf.length)
      (readChunkTrailers width (line.bytes.length + pos + 2)) (fun _ => returns decoded) fails) :
    Triple (fun reader => invariant reader ∧ pos ≤ reader.buf.length)
      (loop (chunkRound width) _ (chunkRound_descends width) (pos, decoded)) returns fails := by
  rw [loop_eq]
  refine Triple.bind (fun next reader => next = .inr decoded ∧ returns decoded reader) ?_ ?_
  · refine Triple.bind _ (readSizeLine_arrives line hsteady hcontent hplace (Nat.zero_le _)) ?_
    intro sized
    apply Triple.assuming fun _ hsized => hsized.1
    rintro rfl
    rw [readSized, if_pos rfl]
    refine Triple.bind _ (htrailers.entering fun _ hsized => hsized.2) fun _ => .pure ?_
    exact fun _ hreturns => ⟨rfl, hreturns⟩
  · intro next
    apply Triple.assuming fun _ hnext => hnext.1
    rintro rfl
    exact .pure fun _ hnext => hnext.2

end Steady

/-! ## Whole bodies -/

section Body

variable (width : PointerWidth) (encoding : Encoding) (following : List UInt8)

namespace Encoding

/-- The position of the first trailer. -/
def trailerStart : Nat := encoding.last.bytes.length + encoding.chunkBytes.length + 2

/-- The position of the empty line after the trailers. -/
def finalLine : Nat := encoding.trailerStart + encoding.trailerBytes.length

theorem length_bytes : encoding.bytes.length = encoding.finalLine + 2 := by
  simp only [bytes, finalLine, trailerStart, List.length_append, length_crlf]
  omega

theorem drop_chunkBytes :
    (encoding.bytes ++ following).drop encoding.chunkBytes.length =
      encoding.last.bytes ++ (crlf ++ (encoding.trailerBytes ++ (crlf ++ following))) := by
  simp only [bytes, List.append_assoc, List.drop_left]

theorem drop_trailerStart :
    (encoding.bytes ++ following).drop encoding.trailerStart =
      encoding.trailerBytes ++ (crlf ++ following) := by
  have hbehind := drop_of_content (drop_of_content (encoding.drop_chunkBytes following))
  rwa [length_crlf, Nat.add_comm encoding.chunkBytes.length] at hbehind

theorem drop_finalLine :
    (encoding.bytes ++ following).drop encoding.finalLine = crlf ++ following :=
  drop_of_content (encoding.drop_trailerStart following)

end Encoding

/-- Up to the empty line at the end, the reader decodes the body. -/
theorem readChunkedBody_triple {target : Nat} {invariant : Reader → Prop}
    {returns : List UInt8 → Reader → Prop} {fails : Stop → Reader → Prop}
    (hsteady : Steady (encoding.bytes ++ following) target invariant)
    (htarget : encoding.finalLine ≤ target)
    (hroom : ∀ reader, invariant reader → reader.buf.length < target →
      reader.buf.length < encoding.trailerStart + maxHeaderBytes)
    (hfinal : Triple
      (fun reader => invariant reader ∧ encoding.finalLine ≤ reader.buf.length)
      (loop (trailerRound width encoding.trailerStart) _
        (trailerRound_descends width encoding.trailerStart) encoding.finalLine)
      (fun _ => returns encoding.body) fails) :
    Triple invariant (readChunkedBody width) returns fails := by
  have htrailerStart : encoding.trailerStart ≤ target := (Nat.le_add_right _ _).trans htarget
  have hchunks : encoding.chunkBytes.length ≤ target := by
    unfold Encoding.trailerStart at htrailerStart
    omega
  have hsection := trailers_triple hsteady hroom (encoding.drop_trailerStart following) htarget
    Nat.le.refl hfinal
  have hlast := loop_last encoding.last hsteady (encoding.drop_chunkBytes following) htrailerStart
    hsection
  rw [← Nat.zero_add encoding.chunkBytes.length] at hlast hchunks
  have hcontent : (encoding.bytes ++ following).drop 0 =
      encoding.chunks.flatMap Chunk.bytes ++
        (encoding.last.bytes ++ (crlf ++ (encoding.trailerBytes ++ (crlf ++ following)))) := by
    simp only [List.drop_zero, Encoding.bytes, Encoding.chunkBytes, List.append_assoc]
  have hloop := @chunks_triple _ _ target 0 invariant width encoding.chunks [] returns fails
    hsteady hcontent hchunks Nat.le.refl hlast
  exact hloop.entering fun reader hreader => ⟨hreader, Nat.zero_le _⟩

/-- With trailers that leave room for the final line, the body is decoded in every
delivery. -/
theorem readChunkedBody_decodes (hlength : encoding.bytes.length ≤ maxBodyBytes)
    (htrailers : encoding.trailerBytes.length + 2 ≤ maxHeaderBytes) {reader : Reader}
    (hcontent : reader.content = encoding.bytes ++ following) :
    ∃ after, readChunkedBody width reader = .ok encoding.body after := by
  have hbytes := encoding.length_bytes
  have hfinal : encoding.finalLine = encoding.trailerStart + encoding.trailerBytes.length := rfl
  have hsteady : Steady (encoding.bytes ++ following) encoding.bytes.length
      fun reader => reader.content = encoding.bytes ++ following := by
    refine ⟨?_, hlength, fun _ => id, ?_, fun _ _ => id⟩
    · rw [List.length_append]
      omega
    · intro start reader hstart _ hgrown
      rw [hgrown.content, hstart]
  have hroom : ∀ reader : Reader, reader.content = encoding.bytes ++ following →
      reader.buf.length < encoding.bytes.length →
      reader.buf.length < encoding.trailerStart + maxHeaderBytes := by
    intro reader _ hshort
    omega
  have htriple : Triple (fun reader => reader.content = encoding.bytes ++ following)
      (readChunkedBody width) (fun body _ => body = encoding.body) fun _ _ => False := by
    refine readChunkedBody_triple width encoding following hsteady (by omega) hroom ?_
    rw [loop_eq]
    refine Triple.bind (fun next _ => next = .inr ()) ?_ ?_
    · refine Triple.bind _ (trailerLineEnd_arrives hsteady hroom
        (encoding.drop_finalLine following) crlf_not_within_nil (by simp [hbytes]) (by omega)) ?_
      intro place
      apply Triple.assuming fun _ hfound => hfound.1
      rintro rfl
      rw [List.length_nil, Nat.zero_add, if_pos rfl]
      exact .pure fun _ _ => rfl
    · intro next
      apply Triple.assuming fun _ hnext => hnext
      rintro rfl
      exact .pure fun _ _ => rfl
  obtain ⟨body, after, hrun, rfl⟩ := htriple.exists_ok hcontent
  exact ⟨after, hrun⟩

/-- The delivery in which the last byte has not arrived yet. -/
def heldBack : Reader := { source := [10 :: following], buf := encoding.bytes.dropLast }

theorem heldBack_content : (heldBack encoding following).content = encoding.bytes ++ following := by
  have hbytes : encoding.bytes = (encoding.chunkBytes ++ (encoding.last.bytes ++
      (crlf ++ (encoding.trailerBytes ++ [13])))) ++ [10] := by
    simp only [Encoding.bytes, List.append_assoc]
    rfl
  rw [Reader.content, heldBack, hbytes, List.dropLast_concat]
  simp [Source.elements]

theorem length_dropLast_bytes : encoding.bytes.dropLast.length = encoding.finalLine + 1 := by
  rw [List.length_dropLast, encoding.length_bytes]
  rfl

/-- Between CR and LF of the final line, what was read of longer trailers is over the limit. -/
theorem trailerLineEnd_heldBack (hlength : encoding.bytes.length ≤ maxBodyBytes)
    (htrailers : maxHeaderBytes < encoding.trailerBytes.length + 2) {reader : Reader}
    (hcontent : reader.content = encoding.bytes ++ following)
    (hbuf : reader.buf = encoding.bytes.dropLast) :
    trailerLineEnd width encoding.trailerStart encoding.finalLine reader.buf =
      .error (.err "chunk trailers exceed limit") := by
  have hfinal : encoding.finalLine = encoding.trailerStart + encoding.trailerBytes.length := rfl
  have hheld : reader.buf.length = encoding.finalLine + 1 := by
    rw [hbuf, length_dropLast_bytes]
  have hline : reader.content.drop encoding.finalLine = [] ++ (crlf ++ following) := by
    rw [hcontent, encoding.drop_finalLine]
    rfl
  have hfits : encoding.bytes.length ≤ 262144 := hlength
  have hbytes := encoding.length_bytes
  rw [trailerLineEnd, lineEnd_of_content hline crlf_not_within_nil (by simp; omega) (by omega),
    if_neg (by simp; omega)]
  exact if_pos (by omega)

/-- With longer trailers, the reader refuses the delivery in which the buffer ends between CR
and LF of the final line. -/
theorem readChunkedBody_refuses (hlength : encoding.bytes.length ≤ maxBodyBytes)
    (htrailers : maxHeaderBytes < encoding.trailerBytes.length + 2) :
    ∃ after, readChunkedBody width (heldBack encoding following) =
      .error (.err "chunk trailers exceed limit") after := by
  have hbytes := encoding.length_bytes
  have hheld := length_dropLast_bytes encoding
  have hsteady : Steady (encoding.bytes ++ following) (encoding.finalLine + 1) fun reader =>
      reader.content = encoding.bytes ++ following ∧ reader.buf = encoding.bytes.dropLast := by
    refine ⟨?_, by omega, fun _ hreader => hreader.1, ?_, fun _ _ => id⟩
    · rw [List.length_append]
      omega
    · rintro start reader ⟨_, hbuf⟩ hshort _
      rw [hbuf] at hshort
      omega
  have htriple : Triple (fun reader => reader.content = encoding.bytes ++ following ∧
        reader.buf = encoding.bytes.dropLast)
      (readChunkedBody width) (fun _ _ => False)
      fun stop _ => stop = .err "chunk trailers exceed limit" := by
    refine readChunkedBody_triple width encoding following hsteady (Nat.le_succ _) ?_ ?_
    · rintro reader ⟨_, hbuf⟩ hshort
      rw [hbuf] at hshort
      omega
    · rw [loop_eq]
      refine Triple.bind (fun _ _ => False) ?_ fun _ _ hfalse => hfalse.elim
      refine Triple.bind (fun _ _ => False) ?_ fun _ _ hfalse => hfalse.elim
      apply await_refuses
      rintro reader ⟨⟨hcontent, hbuf⟩, _⟩
      exact trailerLineEnd_heldBack width encoding following hlength htrailers hcontent hbuf
  obtain ⟨stop, after, hrun, rfl⟩ :=
    htriple.exists_error ⟨heldBack_content encoding following, rfl⟩
  exact ⟨after, hrun⟩

/-- The reader undoes the chunked encoding in every delivery, exactly if the trailers and
the final line together keep to the limit of the headers. -/
theorem chunked_decoding_iff (hlength : encoding.bytes.length ≤ maxBodyBytes) :
    (∀ reader : Reader, reader.content = encoding.bytes ++ following →
      ∃ after, readChunkedBody width reader = .ok encoding.body after) ↔
    encoding.trailerBytes.length + 2 ≤ maxHeaderBytes := by
  constructor
  · intro hdecodes
    by_contra hlong
    obtain ⟨refused, hrefused⟩ :=
      readChunkedBody_refuses width encoding following hlength (Nat.lt_of_not_le hlong)
    obtain ⟨after, hdecoded⟩ := hdecodes _ (heldBack_content encoding following)
    cases hdecoded.symm.trans hrefused
  · intro htrailers reader hcontent
    exact readChunkedBody_decodes width encoding following hlength htrailers hcontent

end Body

theorem plain_unbroken : ∀ text, none = some text → ¬ crlf <:+: Text.bytes text :=
  fun _ hplain => (Option.some_ne_none _ hplain.symm).elim

/-- A body of two chunks, with a leading zero in one of the sizes. -/
def domainEncoding : Encoding where
  chunks :=
    [⟨[118, 105, 114, 107, 103, 106], List.cons_ne_nil _ _,
      ⟨['0', '6'], none, List.cons_ne_nil _ _, rfl, plain_unbroken⟩⟩,
      ⟨[46, 99, 111, 109, 10], List.cons_ne_nil _ _,
        ⟨['5'], none, List.cons_ne_nil _ _, rfl, plain_unbroken⟩⟩]
  last := ⟨['0'], none, List.cons_ne_nil _ _, rfl, plain_unbroken⟩
  trailers := []

theorem chunked_decoding_iff_two_chunks :
    ∃ after, readChunkedBody .bits32
        { source := [[54, 13], [10, 118, 105, 114, 107, 103, 106, 13, 10, 53, 13, 10, 46, 99],
            [111, 109, 10, 13, 10, 48, 13, 10, 13], [10, 71]], buf := [48] } =
      .ok [118, 105, 114, 107, 103, 106, 46, 99, 111, 109, 10] after :=
  (chunked_decoding_iff .bits32 domainEncoding [71] (by decide)).mpr (by decide) _ (by decide)

theorem long_unbroken : ¬ crlf <:+: List.replicate 65533 (97 : UInt8) := by
  intro hwithin
  have hreturn : (13 : UInt8) ∈ List.replicate 65533 97 := hwithin.subset List.mem_cons_self
  cases (List.mem_replicate.mp hreturn).2

theorem long_ne_nil : List.replicate 65533 (97 : UInt8) ≠ [] := by
  rw [Ne, List.replicate_eq_nil_iff]
  decide

/-- An empty body and one trailer, whose line has 65535 bytes with its end. -/
def longTrailer : Encoding where
  chunks := []
  last := ⟨['0'], none, List.cons_ne_nil _ _, rfl, plain_unbroken⟩
  trailers := [⟨List.replicate 65533 97, long_ne_nil, long_unbroken⟩]

/-- The trailer is below the limit, and still the reader refuses it when only the last byte
is missing. -/
theorem long_trailer_refused :
    longTrailer.bytes.length ≤ maxBodyBytes ∧
      longTrailer.trailerBytes.length < maxHeaderBytes ∧
      (heldBack longTrailer []).content = longTrailer.bytes ++ [] ∧
      ∃ after, readChunkedBody .bits64 (heldBack longTrailer []) =
        .error (.err "chunk trailers exceed limit") after := by
  have htrailer : longTrailer.trailerBytes.length = 65535 := by
    change ((List.replicate 65533 97 ++ crlf) ++ []).length = 65535
    rw [List.append_nil, List.length_append, List.length_replicate, length_crlf]
  have hbytes : longTrailer.bytes.length = 65540 := by
    rw [Encoding.length_bytes, Encoding.finalLine, htrailer]
    rfl
  refine ⟨by rw [hbytes]; decide, by rw [htrailer]; decide, heldBack_content longTrailer [], ?_⟩
  exact readChunkedBody_refuses .bits64 longTrailer [] (by rw [hbytes]; decide)
    (by rw [htrailer]; decide)

end TgWsProxy.DefaultDomains
