import TgWsProxy.DefaultDomains.Http

/-!
# The HTTP reader on any server

Whatever the server sends, in whatever pieces: the reader does not panic, its buffers keep
to their limits, and it reads at most once more than there are bytes. A body that it
returns is what the headers say it is.
-/

namespace TgWsProxy.DefaultDomains

open Foundation
open Foundation.Machine (PointerWidth)
open Foundation.Stateful
open Foundation.Stream (Source)
open Outbound (Stop orErr)

def Buffer.limit : Buffer → Nat
  | .headers => maxHeaderBytes
  | .body | .decoded => maxBodyBytes

def Event.isRead : Event → Bool
  | .read _ => true
  | .filled _ _ => false

theorem le_limit_body : maxBodyBytes ≤ Buffer.body.limit := Nat.le.refl

namespace Reader

/-- The number of reads so far. -/
def reads (reader : Reader) : Nat := reader.events.countP Event.isRead

/-- No buffer grew beyond its limit. -/
def Bounded (reader : Reader) : Prop :=
  ∀ buffer length, .filled buffer length ∈ reader.events → length ≤ buffer.limit

variable {start reader : Reader} {events : List Event}

theorem Bounded.append (hbounded : start.Bounded) (hevents : reader.events = start.events ++ events)
    (hnew : ∀ buffer length, .filled buffer length ∈ events → length ≤ buffer.limit) :
    reader.Bounded := by
  intro buffer length hmem
  rw [hevents, List.mem_append] at hmem
  rcases hmem with hmem | hmem
  · exact hbounded buffer length hmem
  · exact hnew buffer length hmem

theorem reads_append (hevents : reader.events = start.events ++ events) :
    reader.reads = start.reads + events.countP Event.isRead := by
  rw [reads, hevents, List.countP_append]
  rfl

end Reader

/-- Every read so far took a byte of the stream of `total` bytes. -/
structure Sound (total : Nat) (reader : Reader) : Prop where
  bounded : reader.Bounded
  reads : reader.reads + reader.pending ≤ total

/-- The last read may have found the end of the stream. -/
structure Ended (total : Nat) (reader : Reader) : Prop where
  bounded : reader.Bounded
  reads : reader.reads + reader.pending ≤ total + 1

/-- An error of the reader, which is not a panic. -/
def Refused (total : Nat) (stop : Stop) (reader : Reader) : Prop :=
  (∃ message, stop = .err message) ∧ Ended total reader

section Sound

variable {total : Nat} {start reader : Reader} {buffer : Buffer} {limit : Nat}

theorem Sound.ended (hsound : Sound total reader) : Ended total reader :=
  ⟨hsound.bounded, Nat.le_succ_of_le hsound.reads⟩

theorem Sound.refused (hsound : Sound total reader) (message : String) :
    Refused total (.err message) reader :=
  ⟨⟨message, rfl⟩, hsound.ended⟩

theorem Sound.grown (hsound : Sound total start) (hlimit : limit ≤ buffer.limit)
    (hgrown : Grown buffer limit start reader) : Sound total reader := by
  obtain ⟨size, hevents⟩ := hgrown.events
  constructor
  · apply hsound.bounded.append hevents
    intro other length hmem
    have hbound := hgrown.bound
    simp only [List.mem_cons, List.not_mem_nil, reduceCtorEq, Event.filled.injEq, false_or,
      or_false] at hmem
    obtain ⟨rfl, rfl⟩ := hmem
    omega
  · have hpending := hgrown.pending_lt
    have hreads := hsound.reads
    have hcount : reader.reads = start.reads + 1 := Reader.reads_append hevents
    omega

theorem Sound.filled (hsound : Sound total reader) {length : Nat} (hlength : length ≤ buffer.limit)
    (buf : List UInt8) :
    Sound total ⟨reader.source, buf, reader.events ++ [.filled buffer length]⟩ := by
  constructor
  · apply hsound.bounded.append rfl
    intro other filled hmem
    cases List.mem_singleton.mp hmem
    exact hlength
  · rw [Reader.reads_append rfl]
    exact hsound.reads

theorem Sound.read (hsound : Sound total start) {size : Nat}
    (hevents : reader.events = start.events ++ [.read size])
    (hpending : reader.pending ≤ start.pending) : Ended total reader := by
  constructor
  · apply hsound.bounded.append hevents
    intro other length hmem
    cases List.mem_singleton.mp hmem
  · have hreads := hsound.reads
    have hcount : reader.reads = start.reads + 1 := Reader.reads_append hevents
    omega

theorem Sound.stopped (hsound : Sound total start) (hstopped : Stopped start reader) :
    Ended total reader := by
  rcases hstopped.events with hevents | ⟨size, hevents⟩
  · have hreads := hsound.ended.reads
    refine ⟨hsound.bounded.append (hevents.trans (List.append_nil _).symm) ?_, ?_⟩
    · intro other length hmem
      cases hmem
    · rw [hstopped.pending, Reader.reads, hevents]
      exact hreads
  · exact hsound.read hevents hstopped.pending.le

end Sound

/-! ## Waiting -/

/-- The buffer while it waits for more of `content`. -/
structure Waiting (content : List UInt8) (total floor cap : Nat) (reader : Reader) : Prop
    extends Sound total reader where
  content : reader.content = content
  floor : floor ≤ reader.buf.length
  cap : reader.buf.length ≤ cap

section Waiting

variable {content : List UInt8} {total floor cap : Nat}

/-- Waiting keeps to the limits, if looking at the buffer does not panic. -/
theorem await_waiting {β : Type} {buffer : Buffer} {limit : Nat}
    {probe : List UInt8 → Except Stop (Option β)} (hlimit : limit ≤ buffer.limit)
    (hcap : limit ≤ cap)
    (hprobe : ∀ buf stop, floor ≤ buf.length → buf.length ≤ cap → probe buf = .error stop →
      ∃ message, stop = .err message) :
    Triple (Waiting content total floor cap) (await buffer limit probe)
      (fun value reader => Waiting content total floor cap reader ∧
        probe reader.buf = .ok (some value))
      (Refused total) := by
  apply await_triple
  · intro reader value hwaiting hfound
    exact ⟨hwaiting, hfound⟩
  · intro reader stop hwaiting hstop
    exact ⟨hprobe _ stop hwaiting.floor hwaiting.cap hstop, hwaiting.ended⟩
  · intro start reader hwaiting _ hgrown
    refine ⟨hwaiting.toSound.grown hlimit hgrown, ?_, ?_, ?_⟩
    · rw [hgrown.content, hwaiting.content]
    · exact hwaiting.floor.trans hgrown.buf.length_le
    · exact hgrown.bound.trans hcap
  · intro start reader message hwaiting _ hstopped _
    exact ⟨⟨message, rfl⟩, hwaiting.toSound.stopped hstopped⟩

theorem lineEnd_in_range {width : PointerWidth} {pos : Nat} {buf : List UInt8}
    (hpos : pos ≤ buf.length) (hcap : buf.length ≤ maxBodyBytes) :
    lineEnd width pos buf = .ok ((Window.position crlf (buf.drop pos)).map (· + pos)) := by
  apply lineEnd_eq hpos
  intro index hindex
  have hfits := Window.position_add_length_le crlf_ne_nil hindex
  simp only [List.length_drop, maxBodyBytes] at hfits hcap
  omega

theorem readUntilHeaders_waiting (width : PointerWidth) :
    Triple (Waiting content total 0 maxHeaderBytes) (readUntilHeaders width)
      (fun headerLen reader => Waiting content total headerLen maxHeaderBytes reader ∧
        ∃ index, Window.position (crlf ++ crlf) content = some index ∧ headerLen = index + 4)
      (Refused total) := by
  have hblank : crlf ++ crlf ≠ [] := List.cons_ne_nil _ _
  have hend {buf : List UInt8} (hcap : buf.length ≤ maxHeaderBytes) :
      headerEnd width buf = .ok ((Window.position (crlf ++ crlf) buf).map (· + 4)) := by
    apply placeAt_eq
    intro index hindex
    have hfits := Window.position_add_length_le hblank hindex
    simp only [maxHeaderBytes] at hcap
    omega
  refine (await_waiting (show maxHeaderBytes ≤ Buffer.headers.limit from Nat.le.refl) Nat.le.refl
    ?_).leaving ?_
  · intro buf stop _ hcap hstop
    rw [headersArrived, hend hcap] at hstop
    exact ⟨_, eq_err_of_refuseFrom hstop⟩
  · rintro headerLen reader ⟨hwaiting, hfound⟩
    rw [headersArrived, hend hwaiting.cap] at hfound
    obtain ⟨index, hindex, rfl⟩ := Option.map_eq_some_iff.mp (refuseFrom_eq_some hfound)
    refine ⟨⟨hwaiting.toSound, hwaiting.content, ?_, hwaiting.cap⟩, index, ?_, rfl⟩
    · exact Window.position_add_length_le hblank hindex
    · rw [← hwaiting.content]
      exact Window.position_extend hblank (List.prefix_append _ _) hindex

/-- Waiting for a line ends with the whole line in the buffer. -/
theorem line_waiting {width : PointerWidth} {pos : Nat}
    {probe : List UInt8 → Except Stop (Option Nat)}
    (hprobe : ∀ buf stop, pos ≤ buf.length → buf.length ≤ maxBodyBytes →
      probe buf = .error stop → ∃ message, stop = .err message)
    (hline : ∀ buf place, probe buf = .ok (some place) → lineEnd width pos buf = .ok (some place)) :
    Triple (Waiting content total pos maxBodyBytes) (await .body maxBodyBytes probe)
      (fun place reader => Waiting content total (place + 2) maxBodyBytes reader ∧ pos ≤ place)
      (Refused total) := by
  refine (await_waiting le_limit_body Nat.le.refl hprobe).leaving ?_
  rintro place reader ⟨hwaiting, hplace⟩
  obtain ⟨hpos, hfits⟩ := lineEnd_eq_some (hline _ _ hplace)
  exact ⟨⟨hwaiting.toSound, hwaiting.content, hfits, hwaiting.cap⟩, hpos⟩

theorem lineEnd_waiting (width : PointerWidth) (pos : Nat) :
    Triple (Waiting content total pos maxBodyBytes) (await .body maxBodyBytes (lineEnd width pos))
      (fun place reader => Waiting content total (place + 2) maxBodyBytes reader ∧ pos ≤ place)
      (Refused total) := by
  refine line_waiting ?_ fun _ _ => id
  intro buf stop hpos hcap hstop
  rw [lineEnd_in_range hpos hcap] at hstop
  cases hstop

theorem trailerLineEnd_waiting (width : PointerWidth) (trailerStart pos : Nat) :
    Triple (Waiting content total pos maxBodyBytes)
      (await .body maxBodyBytes (trailerLineEnd width trailerStart pos))
      (fun place reader => Waiting content total (place + 2) maxBodyBytes reader ∧ pos ≤ place)
      (Refused total) := by
  refine line_waiting ?_ fun _ _ => lineEnd_of_trailerLineEnd
  intro buf stop hpos hcap hstop
  rw [trailerLineEnd, lineEnd_in_range hpos hcap] at hstop
  exact ⟨_, eq_err_of_refuseFrom hstop⟩

theorem trailerRound_waiting (width : PointerWidth) (trailerStart pos : Nat) :
    Triple (Waiting content total pos maxBodyBytes) (trailerRound width trailerStart pos)
      (Sum.elim (fun next => Waiting content total next maxBodyBytes) fun _ => Sound total)
      (Refused total) := by
  apply Triple.bind _ (trailerLineEnd_waiting width trailerStart pos)
  intro place
  split
  · exact .pure fun _ hwaiting => hwaiting.1.toSound
  · apply Triple.assuming fun _ hwaiting => hwaiting.1.floor.trans hwaiting.1.cap
    intro (hfits : place + 2 ≤ 262144)
    apply Triple.ofExcept_bind_ok (usizeAdd_of_lt (by omega))
    exact .pure fun _ hwaiting => hwaiting.1

theorem readChunkTrailers_waiting (width : PointerWidth) (pos : Nat) :
    Triple (Waiting content total pos maxBodyBytes) (readChunkTrailers width pos)
      (fun _ => Sound total) (Refused total) :=
  Triple.loop (fun next => Waiting content total next maxBodyBytes) (trailerRound_waiting width pos)
    pos

/-! ## Bodies -/

theorem takeChunk_waiting {width : PointerWidth} {pos size : Nat} {decoded : List UInt8}
    (hpos : pos ≤ maxBodyBytes) (hdecoded : decoded.length + size ≤ maxBodyBytes) :
    Triple (fun reader => Waiting content total pos maxBodyBytes reader ∧
        pos + size + 2 ≤ reader.buf.length)
      (takeChunk width pos size decoded)
      (fun next reader => Waiting content total next.1 maxBodyBytes reader ∧
        next.2.length ≤ maxBodyBytes)
      (Refused total) := by
  have hlength {reader : Reader} {data : List UInt8}
      (hdata : data = (reader.buf.drop pos).take size) :
      (decoded ++ data).length ≤ maxBodyBytes := by
    have hsize := List.length_take_le size (reader.buf.drop pos)
    rw [List.length_append, hdata]
    omega
  apply takeChunk_triple
  · simp only [maxBodyBytes] at hpos hdecoded
    omega
  · exact fun reader hreader => hreader.2
  · rintro reader data ⟨hwaiting, hthere⟩ hdata _
    refine ⟨⟨hwaiting.toSound.filled (hlength hdata) _, hwaiting.content, ?_, hwaiting.cap⟩,
      hlength hdata⟩
    change pos + (size + 2) ≤ reader.buf.length
    omega
  · rintro reader data message ⟨hwaiting, _⟩ hdata _
    exact (hwaiting.toSound.filled (hlength hdata) _).refused message

theorem le_of_arrived {length : Nat} {buf : List UInt8} {value : Unit}
    (harrived : arrived length buf = .ok (some value)) : length ≤ buf.length := by
  by_contra hshort
  rw [arrived, if_pos (Nat.lt_of_not_le hshort)] at harrived
  cases harrived

theorem orErr_err {α : Type} {message : String} {value : Option α} {stop : Stop}
    (hstop : orErr message value = .error stop) : stop = .err message := by
  cases value with
  | none =>
      cases hstop
      rfl
  | some value => cases hstop

theorem declaredLength_err {width : PointerWidth} {header : Header} {stop : Stop}
    (hstop : declaredLength width header = .error stop) : ∃ message, stop = .err message := by
  unfold declaredLength at hstop
  cases htext : orErr "Content-Length is not valid UTF-8" (Text.fromUtf8 header.value) with
  | error other =>
      rw [htext] at hstop
      cases hstop
      exact ⟨_, orErr_err htext⟩
  | ok text =>
      rw [htext] at hstop
      exact ⟨_, orErr_err hstop⟩

theorem mergeLength_err {width : PointerWidth} {length : Option Nat} {header : Header} {stop : Stop}
    (hstop : mergeLength width length header = .error stop) : ∃ message, stop = .err message := by
  unfold mergeLength at hstop
  cases hvalue : declaredLength width header with
  | error other =>
      rw [hvalue] at hstop
      cases hstop
      exact declaredLength_err hvalue
  | ok value =>
      rw [hvalue] at hstop
      change (if length.any (· != value) then _ else _) = _ at hstop
      split at hstop
      · cases hstop
        exact ⟨_, rfl⟩
      · cases hstop

theorem contentLength_err {width : PointerWidth} {headers : List Header} {stop : Stop}
    (hstop : contentLength width headers = .error stop) : ∃ message, stop = .err message := by
  unfold contentLength at hstop
  generalize headers.filter _ = declaring at hstop
  generalize none = length at hstop
  induction declaring generalizing length with
  | nil => cases hstop
  | cons header declaring ih =>
      rw [List.foldlM_cons] at hstop
      cases hmerged : mergeLength width length header with
      | error other =>
          rw [hmerged] at hstop
          cases hstop
          exact mergeLength_err hmerged
      | ok merged =>
          rw [hmerged] at hstop
          exact ih merged hstop

theorem chunkSize_err {width : PointerWidth} {line : List UInt8} {stop : Stop}
    (hstop : chunkSize width line = .error stop) : ∃ message, stop = .err message := by
  unfold chunkSize at hstop
  cases htext : orErr "chunk size is not valid UTF-8" (Text.fromUtf8 line) with
  | error other =>
      rw [htext] at hstop
      cases hstop
      exact ⟨_, orErr_err htext⟩
  | ok text =>
      rw [htext] at hstop
      exact ⟨_, orErr_err hstop⟩

theorem readSizeLine_waiting (width : PointerWidth) (pos : Nat) :
    Triple (Waiting content total pos maxBodyBytes) (readSizeLine width pos)
      (fun sized reader => Waiting content total sized.2 maxBodyBytes reader) (Refused total) := by
  refine Triple.bind _ (lineEnd_waiting width pos) ?_
  intro place
  apply Triple.get_bind
  rintro reader ⟨hwaiting, hpos⟩
  have hplace : place + 2 ≤ 262144 := hwaiting.floor.trans hwaiting.cap
  have hline := hwaiting.floor
  apply Triple.ofExcept_bind_ok (sliceOf_eq_ok_iff.mpr ⟨hpos, by omega, rfl⟩)
  apply Triple.ofExcept_bind
  · intro size _
    apply Triple.ofExcept_bind_ok (usizeAdd_of_lt (by omega))
    apply Triple.pure
    rintro _ rfl
    exact hwaiting
  · rintro stop _ hstop rfl
    exact ⟨chunkSize_err hstop, hwaiting.ended⟩

theorem readSized_waiting {width : PointerWidth} {decoded : List UInt8}
    (hdecoded : decoded.length ≤ maxBodyBytes) (sized : Nat × Nat) :
    Triple (Waiting content total sized.2 maxBodyBytes) (readSized width decoded sized)
      (Sum.elim (fun next reader => Waiting content total next.1 maxBodyBytes reader ∧
          next.2.length ≤ maxBodyBytes)
        fun body reader => Sound total reader ∧ body.length ≤ maxBodyBytes)
      (Refused total) := by
  obtain ⟨size, pos⟩ := sized
  dsimp only [readSized]
  split
  · refine Triple.bind _ (readChunkTrailers_waiting width pos) fun _ => .pure ?_
    exact fun _ hsound => ⟨hsound, hdecoded⟩
  split
  · exact .throw fun _ hwaiting => hwaiting.toSound.refused _
  next hfits =>
    have hroom := not_maxBodyBytes_lt_saturatingAdd.mp hfits
    have hsize : size ≤ 262144 := (Nat.le_add_left _ _).trans hroom
    apply Triple.assuming fun _ hwaiting => hwaiting.floor.trans hwaiting.cap
    intro (hpos : pos ≤ 262144)
    have harrived (buf : List UInt8) : chunkArrived width pos size buf =
        arrived (pos + size + 2) buf := chunkArrived_eq (by omega)
    refine Triple.bind (fun _ reader => Waiting content total pos maxBodyBytes reader ∧
      pos + size + 2 ≤ reader.buf.length) ?_ fun _ => ?_
    · refine (await_waiting le_limit_body Nat.le.refl ?_).leaving ?_
      · intro buf stop _ _ hstop
        rw [harrived] at hstop
        cases hstop
      · rintro _ reader ⟨hwaiting, hfound⟩
        rw [harrived] at hfound
        exact ⟨hwaiting, le_of_arrived hfound⟩
    · refine Triple.bind _ (takeChunk_waiting hpos hroom) fun next => .pure ?_
      exact fun _ hnext => hnext

theorem chunkRound_waiting (width : PointerWidth) (progress : Nat × List UInt8) :
    Triple (fun reader => Waiting content total progress.1 maxBodyBytes reader ∧
        progress.2.length ≤ maxBodyBytes)
      (chunkRound width progress)
      (Sum.elim (fun next reader => Waiting content total next.1 maxBodyBytes reader ∧
          next.2.length ≤ maxBodyBytes)
        fun body reader => Sound total reader ∧ body.length ≤ maxBodyBytes)
      (Refused total) := by
  apply Triple.assuming fun _ hreader => hreader.2
  intro hdecoded
  refine Triple.bind _ ((readSizeLine_waiting width _).entering fun _ hreader => hreader.1) ?_
  exact readSized_waiting hdecoded

theorem readChunkedBody_waiting (width : PointerWidth) :
    Triple (Waiting content total 0 maxBodyBytes) (readChunkedBody width)
      (fun body reader => Sound total reader ∧ body.length ≤ maxBodyBytes) (Refused total) := by
  refine (Triple.loop _ (@chunkRound_waiting content total width) (0, [])).entering ?_
  intro reader hwaiting
  exact ⟨hwaiting, Nat.zero_le _⟩

theorem readContentLengthBody_waiting (len : Nat) :
    Triple (Waiting content total 0 maxBodyBytes) (readContentLengthBody len)
      (fun body reader => Sound total reader ∧ body = content.take len ∧ body.length = len ∧
        len ≤ maxBodyBytes)
      (Refused total) := by
  unfold readContentLengthBody
  split
  · exact .throw fun _ hwaiting => hwaiting.toSound.refused _
  next hlen =>
    have hfits : len ≤ maxBodyBytes := Nat.le_of_not_lt hlen
    refine Triple.bind _ (await_waiting hfits hfits ?_) fun _ => ?_
    · intro buf stop _ _ hstop
      cases hstop
    · apply Triple.get_bind
      rintro reader ⟨hwaiting, hfound⟩
      have hthere := le_of_arrived hfound
      apply Triple.pure
      rintro _ rfl
      refine ⟨hwaiting.toSound, ?_, List.length_take_of_le hthere, hfits⟩
      rw [← hwaiting.content, Reader.content, List.take_append_of_le_length hthere]

theorem readUntilEofLimited_waiting (width : PointerWidth) :
    Triple (Waiting content total 0 maxBodyBytes) (readUntilEofLimited width)
      (fun body reader => Ended total reader ∧ body = content ∧ body.length ≤ maxBodyBytes)
      (Refused total) := by
  apply Triple.loop fun _ => Waiting content total 0 maxBodyBytes
  intro _
  apply Triple.get_bind
  intro start hwaiting
  split
  · exact .throw (by rintro _ rfl; exact hwaiting.toSound.refused _)
  refine Triple.bind _ (read_taken (by omega) start) ?_
  intro piece
  split
  next hempty =>
    apply Triple.pure
    intro reader htaken
    obtain ⟨-, hended⟩ := htaken.ended (List.isEmpty_iff.mp hempty)
    refine ⟨hwaiting.toSound.read htaken.events htaken.pending_le, ?_, hwaiting.cap⟩
    rw [← hwaiting.content, Reader.content, List.eq_nil_of_length_eq_zero hended, List.append_nil]
  next hpiece =>
    have hnonempty : piece ≠ [] := fun hnil => hpiece (List.isEmpty_iff.mpr hnil)
    split
    · apply Triple.throw
      intro reader htaken
      exact ⟨⟨_, rfl⟩, hwaiting.toSound.read htaken.events htaken.pending_le⟩
    next hfits =>
      have hroom := not_maxBodyBytes_lt_saturatingAdd.mp hfits
      refine Triple.bind (fun _ => Waiting content total 0 maxBodyBytes) (.modify ?_)
        fun _ => .pure fun _ hreader => hreader
      intro reader htaken
      have hgrown := @Taken.grown .body _ _ _ _ _ htaken hnonempty hroom
      refine ⟨hwaiting.toSound.grown Nat.le.refl hgrown, ?_, Nat.zero_le _, hgrown.bound⟩
      rw [hgrown.content, hwaiting.content]

end Waiting

/-! ## The whole response -/

/-- What the headers say of the body, where `rest` is everything behind them. -/
structure IsBody (headers : List Header) (declared : Option Nat) (rest body : List UInt8) :
    Prop where
  bound : body.length ≤ maxBodyBytes
  measured : isChunked headers = false → ∀ len, declared = some len →
    body.length = len ∧ body = rest.take len
  whole : isChunked headers = false → declared = none → body = rest

theorem readBody_waiting {total : Nat} {rest : List UInt8} (width : PointerWidth)
    (headers : List Header) (declared : Option Nat) :
    Triple (Waiting rest total 0 maxBodyBytes) (readBody width headers declared)
      (fun body reader => Ended total reader ∧ IsBody headers declared rest body)
      (Refused total) := by
  unfold readBody
  split
  next hchunked =>
    refine (readChunkedBody_waiting width).leaving ?_
    rintro body reader ⟨hsound, hbound⟩
    refine ⟨hsound.ended, hbound, ?_, ?_⟩
    · intro hplain
      cases hchunked.symm.trans hplain
    · intro hplain
      cases hchunked.symm.trans hplain
  next =>
    cases declared with
    | none =>
        refine (readUntilEofLimited_waiting width).leaving ?_
        rintro body reader ⟨hended, hwhole, hbound⟩
        refine ⟨hended, hbound, ?_, fun _ _ => hwhole⟩
        intro _ len hsome
        cases hsome
    | some len =>
        refine (readContentLengthBody_waiting len).leaving ?_
        rintro body reader ⟨hsound, htake, hlength, hlen⟩
        refine ⟨hsound.ended, hlength.le.trans hlen, ?_, ?_⟩
        · intro _ other hsome
          cases hsome
          exact ⟨hlength, htake⟩
        · intro _ hnone
          cases hnone

theorem eq_some_of_orErr {α : Type} {message : String} {value : Option α} {result : α}
    (hresult : orErr message value = .ok result) : value = some result := by
  cases value with
  | none => cases hresult
  | some value =>
      cases hresult
      rfl

theorem readParsed_waiting {total : Nat} {content : List UInt8} (width : PointerWidth)
    (headerLen : Nat) (response : Response) :
    Triple (Waiting content total headerLen maxHeaderBytes) (readParsed width headerLen response)
      (fun text reader => Ended total reader ∧ ∃ headers declared,
        response = .complete (some 200) headers ∧ contentLength width headers = .ok declared ∧
        IsBody headers declared (content.drop headerLen) text.bytes)
      (Refused total) := by
  have hrefused (message : String) (reader : Reader)
      (hwaiting : Waiting content total headerLen maxHeaderBytes reader) :
      Refused total (.err message) reader := hwaiting.toSound.refused message
  cases response with
  | failed message => exact .throw (hrefused _)
  | incomplete => exact .throw (hrefused _)
  | complete code headers =>
      cases code with
      | none => exact .throw (hrefused _)
      | some code =>
          rw [readParsed]
          split
          · exact .throw (hrefused _)
          next hcode =>
            obtain rfl : code = 200 := not_not.mp hcode
            apply Triple.ofExcept_bind
            · intro declared hdeclared
              apply Triple.get_bind
              intro reader hwaiting
              apply Triple.ofExcept_bind_ok
                (sliceOf_eq_ok_iff.mpr ⟨hwaiting.floor, Nat.le.refl, rfl⟩)
              rw [List.take_length]
              have hbound : (reader.buf.drop headerLen).length ≤ maxBodyBytes := by
                have hcap := hwaiting.cap
                rw [List.length_drop]
                simp only [maxHeaderBytes, maxBodyBytes] at hcap ⊢
                omega
              refine Triple.bind (fun _ => Waiting (content.drop headerLen) total 0 maxBodyBytes)
                (.modify ?_) fun _ => ?_
              · -- The body starts with what was read behind the headers.
                rintro _ rfl
                refine ⟨hwaiting.toSound.filled hbound _, ?_, Nat.zero_le _, hbound⟩
                rw [← hwaiting.content]
                exact (List.drop_append_of_le_length hwaiting.floor).symm
              · refine Triple.bind _ (readBody_waiting width headers declared) fun body => ?_
                apply Triple.ofExcept
                · rintro text reader htext ⟨hended, hbody⟩
                  rw [← Text.fromUtf8_eq_some_iff.mp (eq_some_of_orErr htext)] at hbody
                  exact ⟨hended, headers, declared, rfl, hdeclared, hbody⟩
                · rintro stop reader hstop ⟨hended, _⟩
                  exact ⟨⟨_, orErr_err hstop⟩, hended⟩
            · intro stop reader hstop hwaiting
              exact ⟨contentLength_err hstop, hwaiting.ended⟩

/-- A response that the reader returns: the status is 200, and the body is the one of the
headers. -/
def IsResponse (width : PointerWidth) (httparse : Nat → List UInt8 → Response)
    (stream : List UInt8) (text : Text) : Prop :=
  ∃ index headers declared,
    Window.position (crlf ++ crlf) stream = some index ∧
    httparse (httpHeaderCount (stream.take (index + 4))) (stream.take (index + 4)) =
      .complete (some 200) headers ∧
    contentLength width headers = .ok declared ∧
    IsBody headers declared (stream.drop (index + 4)) text.bytes

/-- On every stream and in every segmentation, the reader ends without a panic, with its
buffers within their limits and at most one read more than there are bytes, and what it
returns is the body of a response with status 200. -/
theorem http_reader_safe (width : PointerWidth) (httparse : Nat → List UInt8 → Response)
    (source : Source UInt8) :
    Ends (fun text reader => Ended source.elements.length reader ∧
        IsResponse width httparse source.elements text)
      (Refused source.elements.length) (readHttpResponseBody width httparse { source }) := by
  have hstart : Waiting source.elements source.elements.length 0 maxHeaderBytes { source } := by
    refine ⟨⟨?_, ?_⟩, rfl, Nat.zero_le _, Nat.zero_le _⟩
    · intro buffer length hmem
      cases hmem
    · exact (Nat.zero_add _).le
  apply (Triple.bind _ (readUntilHeaders_waiting width) ?_) _ hstart
  intro headerLen
  apply Triple.get_bind
  rintro reader ⟨hwaiting, index, hindex, rfl⟩
  have hhead : reader.buf.take (index + 4) = source.elements.take (index + 4) := by
    rw [← hwaiting.content, Reader.content, List.take_append_of_le_length hwaiting.floor]
  apply Triple.ofExcept_bind_ok (sliceOf_eq_ok_iff.mpr ⟨Nat.zero_le _, hwaiting.floor, rfl⟩)
  rw [List.drop_zero, hhead]
  refine ((readParsed_waiting width (index + 4) _).at_state hwaiting).leaving ?_
  rintro text after ⟨hended, headers, declared, hresponse, hdeclared, hbody⟩
  exact ⟨hended, index, headers, declared, hindex, hresponse, hdeclared, hbody⟩

end TgWsProxy.DefaultDomains
