import TgWsProxy.Foundation.Machine
import TgWsProxy.Foundation.Stateful
import TgWsProxy.Foundation.Stream
import TgWsProxy.Foundation.Window
import TgWsProxy.Outbound.Sources

/-!
# The HTTP response of the domain download

The response is read into a buffer that grows with every read: first until the headers are
complete, then for a body that is chunked, of a declared length, or ends with the stream.
Slices out of range and additions that overflow are panics. The parser of the headers is a
parameter. Next to the buffer, the model keeps a record of all reads and of the lengths to
which the buffers grew.
-/

namespace TgWsProxy.DefaultDomains

open Foundation
open Foundation.Machine (PointerWidth)
open Foundation.Stateful
open Foundation.Stream (Source)
open Outbound (Stop orErr)

def maxHeaderBytes : Nat := 65536

def maxBodyBytes : Nat := 262144

def crlf : List UInt8 := [13, 10]

/-- The buffers that grow with what the server sends. -/
inductive Buffer
  | headers
  | body
  | decoded
  deriving DecidableEq, Repr

inductive Event
  | read (size : Nat)
  | filled (buffer : Buffer) (length : Nat)
  deriving DecidableEq, Repr

/-- The connection, the buffer that is being filled, and the record. -/
structure Reader where
  source : Source UInt8
  buf : List UInt8 := []
  events : List Event := []

abbrev Http := EStateM Stop Reader

namespace Reader

/-- What the buffer holds and what is still to come. -/
def content (reader : Reader) : List UInt8 := reader.buf ++ reader.source.elements

/-- The bytes still to come. -/
def pending (reader : Reader) : Nat := reader.source.elements.length

end Reader

/-! ## Primitives -/

def usizeAdd (width : PointerWidth) (left right : Nat) : Except Stop Nat :=
  match width.checkedAdd left right with
  | some sum => .ok sum
  | none => .error (.panic "attempt to add with overflow")

/-- `&bytes[start..stop]`. -/
def sliceOf (bytes : List UInt8) (start stop : Nat) : Except Stop (List UInt8) :=
  if start ≤ stop ∧ stop ≤ bytes.length then .ok ((bytes.take stop).drop start)
  else .error (.panic "range out of bounds of slice")

def read (size : Nat) : Http (List UInt8) := fun reader =>
  let (piece, rest) := reader.source.read size
  .ok piece { reader with source := rest, events := reader.events ++ [.read size] }

def record (event : Event) : Http Unit :=
  modify fun reader => { reader with events := reader.events ++ [event] }

/-- A new content of the buffer. -/
def fill (buffer : Buffer) (bytes : List UInt8) : Http Unit :=
  modify fun reader =>
    { reader with buf := bytes, events := reader.events ++ [.filled buffer bytes.length] }

theorem maxBodyBytes_lt_usizeMax (width : PointerWidth) : maxBodyBytes < width.usizeMax := by
  cases width <;> decide

theorem not_maxBodyBytes_lt_saturatingAdd {width : PointerWidth} {left right : Nat} :
    ¬ maxBodyBytes < width.saturatingAdd left right ↔ left + right ≤ maxBodyBytes := by
  have hmax := maxBodyBytes_lt_usizeMax width
  unfold PointerWidth.saturatingAdd
  omega

theorem usizeAdd_eq_ok_iff {width : PointerWidth} {left right sum : Nat} :
    usizeAdd width left right = .ok sum ↔ sum = left + right ∧ left + right ≤ width.usizeMax := by
  unfold usizeAdd PointerWidth.checkedAdd
  by_cases hfits : left + right ≤ width.usizeMax
  · simp [hfits, eq_comm]
  · simp [hfits]

/-- Sums of 32 bits do not overflow. -/
theorem usizeAdd_of_lt {width : PointerWidth} {left right : Nat} (hsum : left + right < 2 ^ 32) :
    usizeAdd width left right = .ok (left + right) :=
  usizeAdd_eq_ok_iff.mpr ⟨rfl, width.le_usizeMax hsum⟩

theorem sliceOf_eq_ok_iff {bytes slice : List UInt8} {start stop : Nat} :
    sliceOf bytes start stop = .ok slice ↔
      start ≤ stop ∧ stop ≤ bytes.length ∧ slice = (bytes.take stop).drop start := by
  unfold sliceOf
  by_cases hrange : start ≤ stop ∧ stop ≤ bytes.length
  · simp [hrange, eq_comm]
  · rw [if_neg hrange, ← and_assoc]
    simp [hrange]

def readMore (buffer : Buffer) (limit : Nat) : Http Unit := do
  let reader ← get
  if limit ≤ reader.buf.length then throw (.err "HTTP response exceeds limit")
  else do
    let piece ← read (min (limit - reader.buf.length) 8192)
    if piece.isEmpty then throw (.err "unexpected EOF while reading HTTP response")
    else fill buffer (reader.buf ++ piece)

/-- What a single read did. -/
structure Taken (size : Nat) (start : Reader) (piece : List UInt8) (reader : Reader) : Prop where
  source : start.source.elements = piece ++ reader.source.elements
  all : piece = [] → start.source.elements = []
  short : piece.length ≤ size
  buf : reader.buf = start.buf
  events : reader.events = start.events ++ [.read size]

theorem read_taken {size : Nat} (hsize : 0 < size) (start : Reader) {fails : Stop → Reader → Prop} :
    Triple (· = start) (read size) (Taken size start) fails := by
  rintro _ rfl
  obtain ⟨hsource, hall⟩ := Source.elements_of_read hsize
  exact ⟨hsource, hall, Source.length_read_le _ _, rfl, rfl⟩

theorem Taken.pending_le {size : Nat} {start reader : Reader} {piece : List UInt8}
    (htaken : Taken size start piece reader) : reader.pending ≤ start.pending := by
  have hlength := congrArg List.length htaken.source
  rw [List.length_append] at hlength
  unfold Reader.pending
  omega

/-- At the end of the stream nothing was taken. -/
theorem Taken.ended {size : Nat} {start reader : Reader} {piece : List UInt8}
    (htaken : Taken size start piece reader) (hpiece : piece = []) :
    reader.pending = start.pending ∧ start.pending = 0 := by
  have hstart : start.pending = 0 := congrArg List.length (htaken.all hpiece)
  have hpending := htaken.pending_le
  omega

/-- What a read that was successful did. -/
structure Grown (buffer : Buffer) (limit : Nat) (start reader : Reader) : Prop where
  content : reader.content = start.content
  buf : start.buf <+: reader.buf
  longer : start.buf.length < reader.buf.length
  bound : reader.buf.length ≤ limit
  events : ∃ size, reader.events =
    start.events ++ [.read size, .filled buffer reader.buf.length]

theorem Grown.pending_lt {buffer : Buffer} {limit : Nat} {start reader : Reader}
    (hgrown : Grown buffer limit start reader) : reader.pending < start.pending := by
  have hlength := congrArg List.length hgrown.content
  have hlonger := hgrown.longer
  simp only [Reader.content, List.length_append] at hlength
  unfold Reader.pending
  omega

/-- The piece that was read goes to the end of the buffer. -/
theorem Taken.grown {buffer : Buffer} {size limit : Nat} {start reader : Reader}
    {piece : List UInt8} (htaken : Taken size start piece reader) (hpiece : piece ≠ [])
    (hbound : start.buf.length + piece.length ≤ limit) :
    Grown buffer limit start
      { reader with
        buf := start.buf ++ piece
        events := reader.events ++ [.filled buffer (start.buf ++ piece).length] } := by
  have hpos := List.length_pos_of_ne_nil hpiece
  constructor
  · simp only [Reader.content, htaken.source, List.append_assoc]
  · exact List.prefix_append _ _
  · rw [List.length_append]
    omega
  · rw [List.length_append]
    omega
  · refine ⟨size, ?_⟩
    rw [htaken.events, List.append_assoc]
    rfl

/-- What a read that failed did. -/
structure Stopped (start reader : Reader) : Prop where
  pending : reader.pending = start.pending
  events : reader.events = start.events ∨ ∃ size, reader.events = start.events ++ [.read size]

/-- A read takes bytes from the connection into the buffer, unless the buffer is full or the
stream has ended. -/
theorem readMore_triple {buffer : Buffer} {limit : Nat} {pre : Reader → Prop}
    {returns : Unit → Reader → Prop} {fails : Stop → Reader → Prop}
    (hgrown : ∀ start reader, pre start → Grown buffer limit start reader → returns () reader)
    (hstopped : ∀ start reader message, pre start → Stopped start reader →
      limit ≤ start.buf.length ∨ start.pending = 0 → fails (.err message) reader) :
    Triple pre (readMore buffer limit) returns fails := by
  apply Triple.get_bind
  intro start hstart
  split
  next hfull =>
    apply Triple.throw
    rintro _ rfl
    exact hstopped _ _ _ hstart ⟨rfl, .inl rfl⟩ (.inl hfull)
  next hfull =>
    refine Triple.bind (Taken (min (limit - start.buf.length) 8192) start) ?_ ?_
    · exact read_taken (by omega) start
    intro piece
    split
    next hempty =>
      apply Triple.throw
      intro reader htaken
      obtain ⟨hpending, hended⟩ := htaken.ended (List.isEmpty_iff.mp hempty)
      exact hstopped start reader _ hstart ⟨hpending, .inr ⟨_, htaken.events⟩⟩ (.inr hended)
    next hpiece =>
      apply Triple.modify
      intro reader htaken
      have hshort := htaken.short
      exact hgrown start _ hstart
        (htaken.grown (fun hnil => hpiece (List.isEmpty_iff.mpr hnil)) (by omega))

/-! ## Waiting for input -/

/-- One round of a loop that looks at the buffer, and reads more if what it looks for is not
there yet. -/
def awaitRound {β : Type} (buffer : Buffer) (limit : Nat)
    (probe : List UInt8 → Except Stop (Option β)) (_ : Unit) : Http (Unit ⊕ β) := do
  let reader ← get
  let found ← MonadExcept.ofExcept (probe reader.buf)
  found.elim (do readMore buffer limit; pure (.inl ())) fun value => pure (.inr value)

section Await

variable {β : Type} {buffer : Buffer} {limit : Nat} {probe : List UInt8 → Except Stop (Option β)}
  {invariant again : Reader → Prop} {returns : β → Reader → Prop} {fails : Stop → Reader → Prop}

theorem awaitRound_triple
    (hfound : ∀ reader value, invariant reader → probe reader.buf = .ok (some value) →
      returns value reader)
    (hrefused : ∀ reader stop, invariant reader → probe reader.buf = .error stop →
      fails stop reader)
    (hgrown : ∀ start reader, invariant start → probe start.buf = .ok none →
      Grown buffer limit start reader → again reader)
    (hstopped : ∀ start reader message, invariant start → probe start.buf = .ok none →
      Stopped start reader → limit ≤ start.buf.length ∨ start.pending = 0 →
      fails (.err message) reader) (key : Unit) :
    Triple invariant (awaitRound buffer limit probe key) (Sum.elim (fun _ => again) returns)
      fails := by
  apply Triple.get_bind
  intro start hstart
  apply Triple.ofExcept_bind
  · rintro (_ | value) hprobe
    · apply Triple.bind fun _ => again
      · apply readMore_triple
        · rintro _ reader rfl hreader
          exact hgrown _ reader hstart hprobe hreader
        · rintro _ reader message rfl
          exact hstopped _ reader message hstart hprobe
      · intro _
        exact .pure fun _ hreader => hreader
    · apply Triple.pure
      rintro _ rfl
      exact hfound _ value hstart hprobe
  · rintro stop _ hprobe rfl
    exact hrefused _ stop hstart hprobe

theorem awaitRound_descends (buffer : Buffer) (limit : Nat)
    (probe : List UInt8 → Except Stop (Option β)) :
    Descends (awaitRound buffer limit probe) fun _ reader => reader.pending := by
  apply descends_of_triple
  intro key bound
  apply awaitRound_triple
  · exact fun _ _ _ _ => trivial
  · exact fun _ _ _ _ => trivial
  · rintro start reader rfl _ hgrown
    exact hgrown.pending_lt
  · exact fun _ _ _ _ _ _ _ => trivial

/-- The loops around `read_more`. -/
def await (buffer : Buffer) (limit : Nat) (probe : List UInt8 → Except Stop (Option β)) :
    Http β :=
  loop (awaitRound buffer limit probe) (fun _ reader => reader.pending)
    (awaitRound_descends buffer limit probe) ()

/-- Waiting ends with a look at the buffer or with a read that fails, and until then the
invariant holds. -/
theorem await_triple
    (hfound : ∀ reader value, invariant reader → probe reader.buf = .ok (some value) →
      returns value reader)
    (hrefused : ∀ reader stop, invariant reader → probe reader.buf = .error stop →
      fails stop reader)
    (hgrown : ∀ start reader, invariant start → probe start.buf = .ok none →
      Grown buffer limit start reader → invariant reader)
    (hstopped : ∀ start reader message, invariant start → probe start.buf = .ok none →
      Stopped start reader → limit ≤ start.buf.length ∨ start.pending = 0 →
      fails (.err message) reader) :
    Triple invariant (await buffer limit probe) returns fails :=
  Triple.loop (fun _ => invariant) (awaitRound_triple hfound hrefused hgrown hstopped) ()

/-- A look that refuses the buffer ends the waiting at once. -/
theorem await_refuses {refusal : Stop}
    (hprobe : ∀ reader, invariant reader → probe reader.buf = .error refusal) :
    Triple invariant (await buffer limit probe) (fun _ _ => False)
      fun stop _ => stop = refusal := by
  apply await_triple
  · intro reader value hreader hfound
    cases (hprobe reader hreader).symm.trans hfound
  · intro reader stop hreader hstop
    cases (hprobe reader hreader).symm.trans hstop
    rfl
  · intro start reader hstart hnone
    cases (hprobe start hstart).symm.trans hnone
  · intro start reader message hstart hnone
    cases (hprobe start hstart).symm.trans hnone

end Await

/-- Goes on reading only below the limit. -/
def refuseFrom {β : Type} (limit length : Nat) (message : String) :
    Option β → Except Stop (Option β)
  | some value => .ok (some value)
  | none => if limit ≤ length then .error (.err message) else .ok none

/-- The place of a pattern that was found in a part of the buffer. -/
def placeAt (width : PointerWidth) (offset : Nat) : Option Nat → Except Stop (Option Nat)
  | some found => (usizeAdd width found offset).map some
  | none => .ok none

theorem placeAt_eq_some {width : PointerWidth} {offset place : Nat} {found : Option Nat}
    (hplace : placeAt width offset found = .ok (some place)) :
    ∃ index, found = some index ∧ place = index + offset := by
  cases found with
  | none => cases hplace
  | some index =>
      refine ⟨index, rfl, ?_⟩
      cases hsum : usizeAdd width index offset with
      | error stop =>
          rw [placeAt, hsum] at hplace
          cases hplace
      | ok sum =>
          rw [placeAt, hsum] at hplace
          cases hplace
          exact (usizeAdd_eq_ok_iff.mp hsum).1

theorem refuseFrom_eq_some {β : Type} {limit length : Nat} {message : String} {found : Option β}
    {value : β} (hfound : refuseFrom limit length message found = .ok (some value)) :
    found = some value := by
  cases found with
  | none =>
      rw [refuseFrom] at hfound
      split at hfound <;> cases hfound
  | some other =>
      cases hfound
      rfl

theorem placeAt_eq {width : PointerWidth} {offset : Nat} {found : Option Nat}
    (hfits : ∀ index, found = some index → index + offset < 2 ^ 32) :
    placeAt width offset found = .ok (found.map (· + offset)) := by
  cases found with
  | none => rfl
  | some index => rw [placeAt, usizeAdd_of_lt (hfits index rfl)]; rfl

theorem eq_err_of_refuseFrom {β : Type} {limit length : Nat} {message : String} {found : Option β}
    {stop : Stop} (hstop : refuseFrom limit length message found = .error stop) :
    stop = .err message := by
  cases found with
  | some value => cases hstop
  | none =>
      rw [refuseFrom] at hstop
      split at hstop
      · cases hstop
        rfl
      · cases hstop

/-- The condition of the loops that wait for a number of bytes. -/
def arrived (length : Nat) (buf : List UInt8) : Except Stop (Option Unit) :=
  .ok (if buf.length < length then none else some ())

/-! ## Headers -/

structure Header where
  name : Text
  value : List UInt8
  deriving DecidableEq, Repr

/-- The result of the header parser. -/
inductive Response
  | failed (message : String)
  | incomplete
  | complete (code : Option Nat) (headers : List Header)
  deriving DecidableEq, Repr

def headerEnd (width : PointerWidth) (buf : List UInt8) : Except Stop (Option Nat) :=
  placeAt width 4 (Window.position (crlf ++ crlf) buf)

def httpHeaderCount (headers : List UInt8) : Nat := Window.count crlf headers

def headersArrived (width : PointerWidth) (buf : List UInt8) : Except Stop (Option Nat) := do
  let found ← headerEnd width buf
  refuseFrom maxHeaderBytes buf.length "HTTP response headers exceed limit" found

def readUntilHeaders (width : PointerWidth) : Http Nat :=
  await .headers maxHeaderBytes (headersArrived width)

def isChunked (headers : List Header) : Bool :=
  ((headers.filter fun header =>
      Text.eqIgnoreAsciiCase header.name "transfer-encoding".toList).filterMap
    fun header => Text.fromUtf8 header.value).any fun value =>
      (value.splitOn ',').any fun part =>
        Text.eqIgnoreAsciiCase (Text.trim part) "chunked".toList

def declaredLength (width : PointerWidth) (header : Header) : Except Stop Nat := do
  let value ← orErr "Content-Length is not valid UTF-8" (Text.fromUtf8 header.value)
  orErr "invalid Content-Length"
    (Text.parseUnsigned 10 width.usizeMax (Text.trim value))

/-- A repeated header must repeat the value. -/
def mergeLength (width : PointerWidth) (length : Option Nat) (header : Header) :
    Except Stop (Option Nat) := do
  let value ← declaredLength width header
  if length.any (· != value) then .error (.err "conflicting Content-Length headers")
  else pure (some value)

def contentLength (width : PointerWidth) (headers : List Header) : Except Stop (Option Nat) :=
  (headers.filter fun header =>
    Text.eqIgnoreAsciiCase header.name "content-length".toList).foldlM (mergeLength width) none

/-! ## A body of a declared length -/

def readContentLengthBody (len : Nat) : Http (List UInt8) :=
  if maxBodyBytes < len then throw (.err "HTTP response body exceeds limit")
  else do
    await .body len (arrived len)
    let reader ← get
    pure (reader.buf.take len)

/-! ## A chunked body -/

/-- The end of the line that starts at `pos`. -/
def lineEnd (width : PointerWidth) (pos : Nat) (buf : List UInt8) :
    Except Stop (Option Nat) := do
  let unread ← sliceOf buf pos buf.length
  placeAt width pos (Window.position crlf unread)

theorem crlf_ne_nil : crlf ≠ [] := List.cons_ne_nil _ _

/-- A line that was found lies in the buffer with its end. -/
theorem lineEnd_eq_some {width : PointerWidth} {pos place : Nat} {buf : List UInt8}
    (hplace : lineEnd width pos buf = .ok (some place)) :
    pos ≤ place ∧ place + 2 ≤ buf.length := by
  unfold lineEnd at hplace
  cases hslice : sliceOf buf pos buf.length with
  | error stop =>
      rw [hslice] at hplace
      cases hplace
  | ok unread =>
      rw [hslice] at hplace
      obtain ⟨index, hindex, rfl⟩ := placeAt_eq_some hplace
      obtain ⟨hpos, -, rfl⟩ := sliceOf_eq_ok_iff.mp hslice
      have hfits := Window.position_add_length_le crlf_ne_nil hindex
      simp only [List.length_drop, List.length_take, crlf, List.length_cons, List.length_nil]
        at hfits
      omega

theorem lineEnd_eq {width : PointerWidth} {pos : Nat} {buf : List UInt8} (hpos : pos ≤ buf.length)
    (hfits : ∀ index, Window.position crlf (buf.drop pos) = some index → index + pos < 2 ^ 32) :
    lineEnd width pos buf = .ok ((Window.position crlf (buf.drop pos)).map (· + pos)) := by
  have hslice : sliceOf buf pos buf.length = .ok (buf.drop pos) := by
    rw [sliceOf_eq_ok_iff, List.take_length]
    exact ⟨hpos, Nat.le.refl, rfl⟩
  rw [lineEnd, hslice]
  exact placeAt_eq hfits

def trailerLineEnd (width : PointerWidth) (trailerStart pos : Nat) (buf : List UInt8) :
    Except Stop (Option Nat) := do
  let found ← lineEnd width pos buf
  refuseFrom maxHeaderBytes (buf.length - trailerStart) "chunk trailers exceed limit" found

theorem lineEnd_of_trailerLineEnd {width : PointerWidth} {trailerStart pos place : Nat}
    {buf : List UInt8} (hplace : trailerLineEnd width trailerStart pos buf = .ok (some place)) :
    lineEnd width pos buf = .ok (some place) := by
  unfold trailerLineEnd at hplace
  cases hline : lineEnd width pos buf with
  | error stop =>
      rw [hline] at hplace
      cases hplace
  | ok found =>
      rw [hline] at hplace
      rw [refuseFrom_eq_some hplace]

/-- The loop of `read_chunk_trailers`: the variable is the start of a line, and an empty line
ends the body. -/
def trailerRound (width : PointerWidth) (trailerStart pos : Nat) : Http (Nat ⊕ Unit) := do
  let lineEnd ← await .body maxBodyBytes (trailerLineEnd width trailerStart pos)
  if lineEnd = pos then pure (.inr ())
  else do
    let next ← MonadExcept.ofExcept (usizeAdd width lineEnd 2)
    pure (.inl next)

theorem trailerRound_descends (width : PointerWidth) (trailerStart : Nat) :
    Descends (trailerRound width trailerStart) fun pos reader => reader.content.length - pos := by
  apply descends_of_triple
  intro pos bound
  apply Triple.bind fun place reader => reader.content.length - pos = bound ∧
    pos ≤ place ∧ place + 2 ≤ reader.content.length
  · apply await_triple
    · intro reader place hbound hplace
      have hline := lineEnd_eq_some (lineEnd_of_trailerLineEnd hplace)
      refine ⟨hbound, hline.1, ?_⟩
      rw [Reader.content, List.length_append]
      omega
    · exact fun _ _ _ _ => trivial
    · intro start reader hbound _ hgrown
      rw [hgrown.content, hbound]
    · exact fun _ _ _ _ _ _ _ => trivial
  intro place
  split
  · exact .pure fun _ _ => trivial
  · apply Triple.ofExcept_bind
    · intro next hnext
      apply Triple.pure
      rintro reader ⟨hbound, hpos, hplace⟩
      obtain ⟨rfl, -⟩ := usizeAdd_eq_ok_iff.mp hnext
      change reader.content.length - (place + 2) < bound
      omega
    · exact fun _ _ _ _ => trivial

def readChunkTrailers (width : PointerWidth) (pos : Nat) : Http Unit :=
  loop (trailerRound width pos) (fun pos reader => reader.content.length - pos)
    (trailerRound_descends width pos) pos

/-- The size line of a chunk, without its extension. -/
def chunkSize (width : PointerWidth) (line : List UInt8) : Except Stop Nat := do
  let sizeLine ← orErr "chunk size is not valid UTF-8" (Text.fromUtf8 line)
  orErr "invalid chunk size"
    (Text.parseUnsigned 16 width.usizeMax (Text.trim (sizeLine.takeWhile (· != ';'))))

def chunkArrived (width : PointerWidth) (pos size : Nat) (buf : List UInt8) :
    Except Stop (Option Unit) := do
  let dataEnd ← usizeAdd width pos size
  let chunkEnd ← usizeAdd width dataEnd 2
  arrived chunkEnd buf

theorem chunkArrived_eq {width : PointerWidth} {pos size : Nat} {buf : List UInt8}
    (hfits : pos + size + 2 < 2 ^ 32) :
    chunkArrived width pos size buf = arrived (pos + size + 2) buf := by
  rw [chunkArrived, usizeAdd_of_lt (by omega)]
  change usizeAdd width (pos + size) 2 >>= _ = _
  rw [usizeAdd_of_lt hfits]
  rfl

/-- The data of a chunk that is in the buffer, and the position behind it. -/
def takeChunk (width : PointerWidth) (pos size : Nat) (decoded : List UInt8) :
    Http (Nat × List UInt8) := do
  let reader ← get
  let dataEnd ← MonadExcept.ofExcept (usizeAdd width pos size)
  let data ← MonadExcept.ofExcept (sliceOf reader.buf pos dataEnd)
  record (.filled .decoded (decoded ++ data).length)
  let chunkEnd ← MonadExcept.ofExcept (usizeAdd width dataEnd 2)
  let ending ← MonadExcept.ofExcept (sliceOf reader.buf dataEnd chunkEnd)
  if ending ≠ crlf then throw (.err "chunk is missing trailing CRLF")
  else do
    let step ← MonadExcept.ofExcept (usizeAdd width size 2)
    let next ← MonadExcept.ofExcept (usizeAdd width pos step)
    pure (next, decoded ++ data)

/-- The size line at `pos`: the size, and the position behind the line. -/
def readSizeLine (width : PointerWidth) (pos : Nat) : Http (Nat × Nat) := do
  let lineEnd ← await .body maxBodyBytes (lineEnd width pos)
  let reader ← get
  let line ← MonadExcept.ofExcept (sliceOf reader.buf pos lineEnd)
  let size ← MonadExcept.ofExcept (chunkSize width line)
  let next ← MonadExcept.ofExcept (usizeAdd width lineEnd 2)
  pure (size, next)

/-- What follows the size line of a chunk: the trailers behind the last one, or the data. -/
def readSized (width : PointerWidth) (decoded : List UInt8) :
    Nat × Nat → Http ((Nat × List UInt8) ⊕ List UInt8) := fun (size, pos) =>
  if size = 0 then do
    readChunkTrailers width pos
    pure (.inr decoded)
  else if maxBodyBytes < width.saturatingAdd decoded.length size then
    throw (.err "HTTP response body exceeds limit")
  else do
    await .body maxBodyBytes (chunkArrived width pos size)
    let next ← takeChunk width pos size decoded
    pure (.inl next)

/-- The loop of `read_chunked_body`: the variables are the position and the decoded bytes. -/
def chunkRound (width : PointerWidth) :
    Nat × List UInt8 → Http ((Nat × List UInt8) ⊕ List UInt8) := fun (pos, decoded) => do
  let sized ← readSizeLine width pos
  readSized width decoded sized

/-- A chunk that is in the buffer is taken if CRLF follows it. -/
theorem takeChunk_triple {width : PointerWidth} {pos size : Nat} {decoded : List UInt8}
    {pre : Reader → Prop} {returns : Nat × List UInt8 → Reader → Prop}
    {fails : Stop → Reader → Prop} (hfits : pos + size + 2 < 2 ^ 32)
    (hthere : ∀ reader, pre reader → pos + size + 2 ≤ reader.buf.length)
    (htaken : ∀ reader data, pre reader → data = (reader.buf.drop pos).take size →
      (reader.buf.drop (pos + size)).take 2 = crlf →
      returns (pos + (size + 2), decoded ++ data)
        { reader with events := reader.events ++ [.filled .decoded (decoded ++ data).length] })
    (hbad : ∀ reader data message, pre reader → data = (reader.buf.drop pos).take size →
      (reader.buf.drop (pos + size)).take 2 ≠ crlf →
      fails (.err message)
        { reader with events := reader.events ++ [.filled .decoded (decoded ++ data).length] }) :
    Triple pre (takeChunk width pos size decoded) returns fails := by
  have hslice (buf : List UInt8) (start length : Nat) (hrange : start + length ≤ buf.length) :
      sliceOf buf start (start + length) = .ok ((buf.drop start).take length) := by
    rw [sliceOf_eq_ok_iff]
    exact ⟨Nat.le_add_right _ _, hrange, List.take_drop⟩
  apply Triple.get_bind
  intro reader hreader
  have hrange := hthere reader hreader
  apply Triple.ofExcept_bind_ok (usizeAdd_of_lt (by omega))
  apply Triple.ofExcept_bind_ok (hslice reader.buf pos size (by omega))
  refine Triple.bind (fun _ after => after = { reader with
    events := reader.events ++ [.filled .decoded
      (decoded ++ (reader.buf.drop pos).take size).length] }) (.modify ?_) ?_
  · rintro _ rfl
    rfl
  intro _
  apply Triple.ofExcept_bind_ok (usizeAdd_of_lt hfits)
  apply Triple.ofExcept_bind_ok (hslice reader.buf (pos + size) 2 hrange)
  split
  next hending =>
    apply Triple.throw
    rintro _ rfl
    exact hbad reader _ _ hreader rfl hending
  next hending =>
    apply Triple.ofExcept_bind_ok (usizeAdd_of_lt (by omega))
    apply Triple.ofExcept_bind_ok (usizeAdd_of_lt (by omega))
    apply Triple.pure
    rintro _ rfl
    exact htaken reader _ hreader rfl (not_not.mp hending)

theorem takeChunk_length (width : PointerWidth) (pos size : Nat) (decoded : List UInt8) :
    Triple (fun _ => True) (takeChunk width pos size decoded)
      (fun next _ => next.2.length = decoded.length + size) fun _ _ => True := by
  apply Triple.get_bind
  intro reader _
  refine Triple.ofExcept_bind ?_ fun _ _ _ _ => trivial
  intro dataEnd hend
  refine Triple.ofExcept_bind ?_ fun _ _ _ _ => trivial
  intro data hdata
  have hlength : data.length = size := by
    obtain ⟨rfl, -⟩ := usizeAdd_eq_ok_iff.mp hend
    obtain ⟨-, hrange, rfl⟩ := sliceOf_eq_ok_iff.mp hdata
    rw [List.length_drop, List.length_take_of_le hrange, Nat.add_sub_cancel_left]
  refine Triple.bind (fun _ _ => True) (.modify fun _ _ => trivial) ?_
  intro _
  refine Triple.ofExcept_bind ?_ fun _ _ _ _ => trivial
  intro chunkEnd _
  refine Triple.ofExcept_bind ?_ fun _ _ _ _ => trivial
  intro ending _
  split
  · exact .throw fun _ _ => trivial
  · refine Triple.ofExcept_bind ?_ fun _ _ _ _ => trivial
    intro step _
    refine Triple.ofExcept_bind ?_ fun _ _ _ _ => trivial
    intro next _
    apply Triple.pure
    intro _ _
    rw [List.length_append, hlength]

theorem chunkRound_descends (width : PointerWidth) :
    Descends (chunkRound width) fun progress _ => maxBodyBytes - progress.2.length := by
  apply descends_of_triple
  rintro ⟨pos, decoded⟩ bound
  apply Triple.assuming fun _ hbound => hbound
  intro (hbound : maxBodyBytes - decoded.length = bound)
  refine Triple.bind (fun _ _ => True) (.of_forall (fun _ _ => trivial) fun _ _ => trivial) ?_
  rintro ⟨size, dataStart⟩
  dsimp only [readSized]
  split
  · refine Triple.bind (fun _ _ => True) (.of_forall (fun _ _ => trivial) fun _ _ => trivial) ?_
    intro _
    exact .pure fun _ _ => trivial
  split
  · exact .throw fun _ _ => trivial
  next hsize hfits =>
    refine Triple.bind (fun _ _ => True) (.of_forall (fun _ _ => trivial) fun _ _ => trivial) ?_
    intro _
    refine Triple.bind _ (takeChunk_length width dataStart size decoded) ?_
    intro next
    apply Triple.pure
    intro _ hlength
    -- The chunk is not empty and still fits.
    have hroom := not_maxBodyBytes_lt_saturatingAdd.mp hfits
    change maxBodyBytes - next.2.length < bound
    omega

def readChunkedBody (width : PointerWidth) : Http (List UInt8) :=
  loop (chunkRound width) (fun progress _ => maxBodyBytes - progress.2.length)
    (chunkRound_descends width) (0, [])

/-! ## A body up to the end of the stream -/

def eofRound (width : PointerWidth) (_ : Unit) : Http (Unit ⊕ List UInt8) := do
  let reader ← get
  if maxBodyBytes < reader.buf.length then throw (.err "HTTP response body exceeds limit")
  else do
    let remaining := maxBodyBytes - reader.buf.length
    let piece ← read (min (max remaining 1) 8192)
    if piece.isEmpty then pure (.inr reader.buf)
    else if maxBodyBytes < width.saturatingAdd reader.buf.length piece.length then
      throw (.err "HTTP response body exceeds limit")
    else do
      fill .body (reader.buf ++ piece)
      pure (.inl ())

theorem eofRound_descends (width : PointerWidth) :
    Descends (eofRound width) fun _ reader => reader.pending := by
  apply descends_of_triple
  intro key bound
  apply Triple.get_bind
  intro start hstart
  split
  · exact .throw fun _ _ => trivial
  refine Triple.bind _ (read_taken (by omega) start) ?_
  intro piece
  split
  · exact .pure fun _ _ => trivial
  split
  · exact .throw fun _ _ => trivial
  next hpiece hfits =>
    refine Triple.bind (fun _ reader => reader.pending < bound) (.modify ?_) fun _ => .pure ?_
    · intro reader htaken
      rw [← hstart]
      exact (htaken.grown (fun hnil => hpiece (List.isEmpty_iff.mpr hnil)) Nat.le.refl).pending_lt
    · exact fun _ hlower => hlower

def readUntilEofLimited (width : PointerWidth) : Http (List UInt8) :=
  loop (eofRound width) (fun _ reader => reader.pending) (eofRound_descends width) ()

/-! ## The response -/

def readBody (width : PointerWidth) (headers : List Header) (declared : Option Nat) :
    Http (List UInt8) :=
  if isChunked headers then readChunkedBody width
  else declared.elim (readUntilEofLimited width) readContentLengthBody

/-- What follows the headers, once they are parsed. -/
def readParsed (width : PointerWidth) (headerLen : Nat) : Response → Http Text
  | .failed message => throw (.err ("HTTP parse error: " ++ message))
  | .incomplete => throw (.err "incomplete HTTP response headers")
  | .complete none _ => throw (.err "response status line has no status code")
  | .complete (some code) headers =>
      if code ≠ 200 then throw (.err ("HTTP status " ++ toString code))
      else do
        let declared ← MonadExcept.ofExcept (contentLength width headers)
        let reader ← get
        let rest ← MonadExcept.ofExcept (sliceOf reader.buf headerLen reader.buf.length)
        fill .body rest
        let body ← readBody width headers declared
        MonadExcept.ofExcept (orErr "response body is not valid UTF-8" (Text.fromUtf8 body))

def readHttpResponseBody (width : PointerWidth) (httparse : Nat → List UInt8 → Response) :
    Http Text := do
  let headerLen ← readUntilHeaders width
  let reader ← get
  let headers ← MonadExcept.ofExcept (sliceOf reader.buf 0 headerLen)
  readParsed width headerLen (httparse (httpHeaderCount headers) headers)

end TgWsProxy.DefaultDomains
