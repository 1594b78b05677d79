import TgWsProxy.DefaultDomains.Chunked
import TgWsProxy.DefaultDomains.Decode
import TgWsProxy.DefaultDomains.Safety

/-!
# From the published list to the domains

The list is a file with a name in each line, and with notes and empty lines. Whichever way
of HTTP the server takes to send it, and in whatever pieces it arrives, the names come out
in order.
-/

namespace TgWsProxy.DefaultDomains

open Foundation
open Foundation.Machine (PointerWidth)
open Foundation.Stateful
open Foundation.Stream (Source)
open Outbound (Stop orErr)

/-! ## The file -/

/-- A name that has a line of its own. -/
structure PublishedName where
  name : Text
  solid : ∀ c ∈ name, Text.isWhitespace c = false
  unmarked : name.head? ≠ some '#'

structure Note where
  text : Text
  unbroken : '\n' ∉ text

inductive Line
  | name (name : PublishedName)
  | note (remark : Note)
  | empty

def Line.text : Line → Text
  | .name published => obfuscate published.name
  | .note remark => '#' :: remark.text
  | .empty => []

def Line.domain : Line → Option Text
  | .name published => some (published.name ++ realSuffix)
  | .note _ | .empty => none

def published (lines : List Line) : Text := lines.flatMap fun line => line.text ++ ['\n']

theorem isWhitespace_of_isAlpha {c : Char} (halpha : c.isAlpha = true) :
    Text.isWhitespace c = false := by
  have hcode : (65 ≤ c.toNat ∧ c.toNat ≤ 90) ∨ (97 ≤ c.toNat ∧ c.toNat ≤ 122) := by
    change (c.isUpper || c.isLower) = true at halpha
    rw [Bool.or_eq_true, isUpper_iff, isLower_iff] at halpha
    exact halpha
  simp only [Text.isWhitespace, Bool.or_eq_false_iff, Bool.and_eq_false_imp, decide_eq_true_eq,
    decide_eq_false_iff_not, beq_eq_false_iff_ne]
  omega

theorem rotate_of_not_isAlpha {c : Char} (hother : c.isAlpha = false) (n : Int) :
    rotate n c = c := by
  change (c.isUpper || c.isLower) = false at hother
  rw [Bool.or_eq_false_iff] at hother
  rw [rotate, hother.1, hother.2]
  rfl

/-- Only letters change, and to letters. -/
theorem isWhitespace_rotate {c : Char} (hc : Text.isWhitespace c = false) (n : Int) :
    Text.isWhitespace (rotate n c) = false := by
  cases halpha : c.isAlpha with
  | true => exact isWhitespace_of_isAlpha (by rw [isAlpha_rotate, halpha])
  | false => rwa [rotate_of_not_isAlpha halpha]

theorem obfuscate_solid (published : PublishedName) :
    ∀ c ∈ obfuscate published.name, Text.isWhitespace c = false := by
  intro c hmem
  rcases List.mem_append.mp hmem with hmem | hmem
  · obtain ⟨letter, hletter, rfl⟩ := List.mem_map.mp hmem
    exact isWhitespace_rotate (published.solid letter hletter) _
  · have hsuffix : ∀ c ∈ ".com".toList, Text.isWhitespace c = false := by
      simp [Text.isWhitespace]
    exact hsuffix c hmem

theorem obfuscate_unmarked (published : PublishedName) :
    (obfuscate published.name).head? ≠ some '#' := by
  obtain ⟨name, -, hunmarked⟩ := published
  cases name with
  | nil =>
      change ".com".toList.head? ≠ some '#'
      decide
  | cons first rest =>
      intro hmarked
      have hrotated : rotate (letters (first :: rest)) first = '#' := Option.some.inj hmarked
      have hother : first.isAlpha = false := by
        rw [← isAlpha_rotate (letters (first :: rest)), hrotated]
        decide
      rw [rotate_of_not_isAlpha hother] at hrotated
      exact hunmarked (congrArg some hrotated)

theorem trim_of_solid {text : Text} (hsolid : ∀ c ∈ text, Text.isWhitespace c = false) :
    Text.trim text = text := by
  have hstart : Text.trimStart text = text := by
    cases text with
    | nil => rfl
    | cons first rest =>
        exact List.dropWhile_cons_of_neg (by simp [hsolid first List.mem_cons_self])
  rw [Text.trim, hstart, Text.trimEnd, List.rdropWhile_eq_self_iff]
  intro hne
  simp [hsolid _ (List.getLast_mem hne)]

/-- A line is cut off behind its line feed. -/
theorem splitInclusive_line {line rest : Text} (hline : '\n' ∉ line) :
    Text.splitInclusive '\n' (line ++ '\n' :: rest) =
      (line ++ ['\n']) :: Text.splitInclusive '\n' rest := by
  induction line with
  | nil => simp [Text.splitInclusive]
  | cons first line ih =>
      obtain ⟨hfirst, hrest⟩ := not_or.mp (mt List.mem_cons.mpr hline)
      rw [List.cons_append, Text.splitInclusive, if_neg (Ne.symm hfirst), ih hrest]
      rfl

theorem Line.unbroken (line : Line) : '\n' ∉ line.text := by
  cases line with
  | name published =>
      intro hmem
      have hsolid : Text.isWhitespace '\n' = false := obfuscate_solid published '\n' hmem
      cases hsolid
  | note remark =>
      intro hmem
      rcases List.mem_cons.mp hmem with hmark | hmem
      · revert hmark
        decide
      · exact remark.unbroken hmem
  | empty => exact List.not_mem_nil

/-- The loop of the list over one line. -/
def parseLine (line : Text) : Option Text :=
  let line := Text.trim (Text.stripLineEnd line)
  if !line.isEmpty && line.head? != some '#' then deobfuscate line else none

theorem parseDomainList_eq (text : Text) :
    parseDomainList text = (Text.splitInclusive '\n' text).filterMap parseLine := by
  unfold parseDomainList Text.lines parseLine
  induction Text.splitInclusive '\n' text with
  | nil => rfl
  | cons line lines ih =>
      simp only [List.map_cons, List.filter_cons, List.filterMap_cons]
      split
      next hkept =>
        rw [List.filterMap_cons, ih]
      next hdropped => rw [ih]

theorem stripLineEnd_concat (line : Text) :
    Text.stripLineEnd (line ++ ['\n']) = (List.isSuffixOf? ['\r'] line).getD line := by
  have hfeed : List.isSuffixOf? ['\n'] (line ++ ['\n']) = some line :=
    List.isSuffixOf?_eq_some_iff_append_eq.mpr rfl
  rw [Text.stripLineEnd, hfeed]

/-- What is not white space at the front stays there. -/
theorem head?_trim {first : Char} (hfirst : Text.isWhitespace first = false) (rest : Text) :
    (Text.trim (first :: rest)).head? = some first := by
  have hstart : Text.trimStart (first :: rest) = first :: rest :=
    List.dropWhile_cons_of_neg (by simp [hfirst])
  obtain ⟨trail, hblank, hends⟩ := Text.exists_trimEnd (first :: rest)
  rw [Text.trim, hstart]
  cases hkept : Text.trimEnd (first :: rest) with
  | nil =>
      rw [hkept] at hends
      have hmem : first ∈ trail := by
        rw [show trail = first :: rest from hends.symm]
        exact List.mem_cons_self
      rw [hblank first hmem] at hfirst
      cases hfirst
  | cons other kept =>
      rw [hkept] at hends
      cases hends
      rfl

theorem parseLine_text (line : Line) : parseLine (line.text ++ ['\n']) = line.domain := by
  unfold parseLine
  rw [stripLineEnd_concat]
  cases line with
  | name published =>
      have hreturn : List.isSuffixOf? ['\r'] (obfuscate published.name) = none := by
        rw [Option.eq_none_iff_forall_ne_some]
        intro front hfront
        have hends := List.isSuffixOf?_eq_some_iff_append_eq.mp hfront
        have hsolid : Text.isWhitespace '\r' = false :=
          obfuscate_solid published '\r' (hends ▸ List.mem_append_right front List.mem_cons_self)
        cases hsolid
      have hnonempty : (obfuscate published.name).isEmpty = false := by
        rw [List.isEmpty_eq_false_iff]
        exact List.append_ne_nil_of_right_ne_nil _ (by decide)
      simp only [Line.text, Line.domain, hreturn, Option.getD_none,
        trim_of_solid (obfuscate_solid published), hnonempty, Bool.not_false, Bool.true_and,
        bne_iff_ne]
      rw [if_pos (obfuscate_unmarked published), deobfuscate_obfuscate]
  | note remark =>
      obtain ⟨rest, hrest⟩ : ∃ rest, (List.isSuffixOf? ['\r'] ('#' :: remark.text)).getD
          ('#' :: remark.text) = '#' :: rest := by
        cases hreturn : List.isSuffixOf? ['\r'] ('#' :: remark.text) with
        | none => exact ⟨remark.text, rfl⟩
        | some front =>
            have hfront := List.isSuffixOf?_eq_some_iff_append_eq.mp hreturn
            cases front with
            | nil => cases hfront
            | cons first front =>
                obtain ⟨rfl, -⟩ := List.cons.inj hfront
                exact ⟨front, rfl⟩
      simp only [Line.text, hrest]
      rw [head?_trim (by decide)]
      simp [Line.domain]
  | empty => rfl

/-- What the list is read as. -/
theorem parseDomainList_published (lines : List Line) :
    parseDomainList (published lines) = lines.filterMap Line.domain := by
  rw [parseDomainList_eq]
  induction lines with
  | nil => rfl
  | cons line lines ih =>
      have hcons : published (line :: lines) = line.text ++ '\n' :: published lines := by
        rw [published, List.flatMap_cons, List.append_assoc]
        rfl
      rw [hcons, splitInclusive_line line.unbroken, List.filterMap_cons, List.filterMap_cons,
        parseLine_text, ih]

/-! ## The response -/

/-- The head of a response that the parser takes, with the headers that it finds in it. -/
structure Head (width : PointerWidth) (httparse : Nat → List UInt8 → Response) (head : List UInt8)
    (headers : List Header) (declared : Option Nat) : Prop where
  ended : ∃ index, Window.position (crlf ++ crlf) head = some index ∧ head.length = index + 4
  fits : head.length ≤ maxHeaderBytes
  parsed : httparse (httpHeaderCount head) head = .complete (some 200) headers
  declared : contentLength width headers = .ok declared

/-- What stands behind the head carries the body, in one of the three ways of HTTP. -/
inductive Delivers (headers : List Header) (declared : Option Nat) (body : List UInt8) :
    List UInt8 → Prop
  | chunked (encoding : Encoding) (following : List UInt8) (hchunked : isChunked headers = true)
      (hbody : encoding.body = body) (hlength : encoding.bytes.length ≤ maxBodyBytes)
      (htrailers : encoding.trailerBytes.length + 2 ≤ maxHeaderBytes) :
      Delivers headers declared body (encoding.bytes ++ following)
  | measured (following : List UInt8) (hplain : isChunked headers = false)
      (hdeclared : declared = some body.length) (hlength : body.length ≤ maxBodyBytes) :
      Delivers headers declared body (body ++ following)
  | closed (hplain : isChunked headers = false) (hdeclared : declared = none)
      (hlength : body.length ≤ maxBodyBytes) : Delivers headers declared body body

section Response

variable {width : PointerWidth} {content body following : List UInt8}

theorem buf_prefix (reader : Reader) : reader.buf <+: reader.content := ⟨_, rfl⟩

/-- The head is found in the buffer as soon as all of it is there. -/
theorem readUntilHeaders_arrives {index : Nat} {fails : Stop → Reader → Prop}
    (hposition : Window.position (crlf ++ crlf) content = some index)
    (hfits : index + 4 ≤ maxHeaderBytes) :
    Triple (fun reader => reader.content = content ∧ reader.buf.length ≤ maxHeaderBytes)
      (readUntilHeaders width)
      (fun headerLen reader => headerLen = index + 4 ∧ reader.content = content ∧
        index + 4 ≤ reader.buf.length)
      fails := by
  have hblank : crlf ++ crlf ≠ [] := List.cons_ne_nil _ _
  have hlong := Window.position_add_length_le hblank hposition
  have hprobe : ∀ reader : Reader, reader.content = content →
      headersArrived width reader.buf =
        .ok (if index + 4 ≤ reader.buf.length then some (index + 4) else none) := by
    intro reader hreader
    have hfound := Window.position_beginning hblank (hreader ▸ buf_prefix reader) hposition
    rw [headersArrived, headerEnd, hfound]
    change (do
      let found ← placeAt width 4 (if index + 4 ≤ reader.buf.length then some index else none)
      refuseFrom maxHeaderBytes reader.buf.length "HTTP response headers exceed limit" found) = _
    split
    next hthere =>
      rw [placeAt, usizeAdd_of_lt (by simp only [maxHeaderBytes] at hfits; omega)]
      rfl
    next hmissing =>
      change (if maxHeaderBytes ≤ reader.buf.length then _ else _) = _
      rw [if_neg (by omega)]
  apply await_triple
  · rintro reader found ⟨hreader, hbound⟩ hfound
    rw [hprobe reader hreader] at hfound
    split at hfound
    next hthere =>
      cases hfound
      exact ⟨rfl, hreader, hthere⟩
    next => cases hfound
  · rintro reader stop ⟨hreader, -⟩ hstop
    rw [hprobe reader hreader] at hstop
    cases hstop
  · rintro start reader ⟨hstart, -⟩ - hgrown
    exact ⟨hgrown.content.trans hstart, hgrown.bound⟩
  · rintro start reader message ⟨hstart, -⟩ hnone - hreason
    rw [hprobe start hstart] at hnone
    split at hnone
    next => cases hnone
    next hmissing =>
      have hlength := congrArg List.length hstart
      rw [Reader.content, List.length_append] at hlength
      change index + 4 ≤ content.length at hlong
      unfold Reader.pending at hreason
      omega

theorem readContentLengthBody_arrives {fails : Stop → Reader → Prop}
    (hlength : body.length ≤ maxBodyBytes) :
    Triple (fun reader => reader.content = body ++ following) (readContentLengthBody body.length)
      (fun found _ => found = body) fails := by
  rw [readContentLengthBody, if_neg (Nat.not_lt.mpr hlength)]
  refine Triple.bind (fun _ reader => reader.content = body ++ following ∧
    body.length ≤ reader.buf.length) (await_triple ?_ ?_ ?_ ?_) fun _ => ?_
  · intro reader _ hreader hfound
    exact ⟨hreader, le_of_arrived hfound⟩
  · intro reader stop _ hstop
    cases hstop
  · intro start reader hstart _ hgrown
    exact hgrown.content.trans hstart
  · intro start reader message hstart hnone _ hreason
    have hmissing : start.buf.length < body.length := by
      by_contra hthere
      rw [arrived, if_neg hthere] at hnone
      cases hnone
    have htotal := congrArg List.length hstart
    rw [Reader.content, List.length_append, List.length_append] at htotal
    unfold Reader.pending at hreason
    omega
  · apply Triple.get_bind
    rintro reader ⟨hreader, hthere⟩
    have htaken : reader.buf.take body.length = reader.content.take body.length :=
      (List.take_append_of_le_length hthere).symm
    refine .pure fun _ _ => ?_
    rw [htaken, hreader, List.take_left]

theorem readUntilEofLimited_arrives {fails : Stop → Reader → Prop}
    (hlength : body.length ≤ maxBodyBytes) :
    Triple (fun reader => reader.content = body) (readUntilEofLimited width)
      (fun found _ => found = body) fails := by
  apply Triple.loop fun _ (reader : Reader) => reader.content = body
  intro _
  apply Triple.get_bind
  intro start hstart
  have hwhole := congrArg List.length hstart
  rw [Reader.content, List.length_append] at hwhole
  rw [if_neg (by omega)]
  refine Triple.bind _ (read_taken (by omega) start) ?_
  intro piece
  split
  next hempty =>
    apply Triple.pure
    intro reader htaken
    change start.buf = body
    rw [← hstart, Reader.content, htaken.all (List.isEmpty_iff.mp hempty), List.append_nil]
  next hpiece =>
    have hnonempty : piece ≠ [] := fun hnil => hpiece (List.isEmpty_iff.mpr hnil)
    refine Triple.assuming (fun reader htaken => show
      start.buf.length + piece.length ≤ maxBodyBytes from ?_) fun hroom => ?_
    · have hpending := congrArg List.length htaken.source
      rw [List.length_append] at hpending
      omega
    · rw [if_neg (not_maxBodyBytes_lt_saturatingAdd.mpr hroom)]
      refine Triple.bind (fun _ reader => reader.content = body) (.modify ?_)
        fun _ => .pure fun _ hreader => hreader
      intro reader htaken
      exact (@Taken.grown .body _ _ _ _ _ htaken hnonempty hroom).content.trans hstart

/-- The body is read, whichever way it is delivered. -/
theorem readBody_arrives {headers : List Header} {declared : Option Nat} {rest : List UInt8}
    (hdelivers : Delivers headers declared body rest) :
    Triple (fun reader => reader.content = rest) (readBody width headers declared)
      (fun found _ => found = body) fun _ _ => False := by
  unfold readBody
  cases hdelivers with
  | chunked encoding following hchunked hbody hlength htrailers =>
      rw [if_pos hchunked]
      intro reader hreader
      obtain ⟨after, hrun⟩ :=
        readChunkedBody_decodes width encoding following hlength htrailers hreader
      rw [hrun]
      exact hbody
  | measured following hplain hdeclared hlength =>
      rw [if_neg (by simp [hplain]), hdeclared]
      exact readContentLengthBody_arrives hlength
  | closed hplain hdeclared hlength =>
      rw [if_neg (by simp [hplain]), hdeclared]
      exact readUntilEofLimited_arrives hlength

/-- The text of the body comes back, in every delivery. -/
theorem readHttpResponseBody_arrives {httparse : Nat → List UInt8 → Response}
    {head rest : List UInt8} {headers : List Header} {declared : Option Nat} {text : Text}
    (hhead : Head width httparse head headers declared)
    (hdelivers : Delivers headers declared text.bytes rest) :
    Triple (fun reader => reader.content = head ++ rest ∧ reader.buf.length ≤ maxHeaderBytes)
      (readHttpResponseBody width httparse) (fun found _ => found = text) fun _ _ => False := by
  obtain ⟨index, hindex, hlength⟩ := hhead.ended
  have hposition : Window.position (crlf ++ crlf) (head ++ rest) = some index :=
    Window.position_extend (List.cons_ne_nil _ _) (List.prefix_append _ _) hindex
  refine Triple.bind _ (readUntilHeaders_arrives hposition (hlength ▸ hhead.fits))
    fun headerLen => ?_
  apply Triple.get_bind
  rintro reader ⟨rfl, hreader, hthere⟩
  rw [← hlength] at hthere ⊢
  have htake : reader.buf.take head.length = head := by
    rw [← List.take_append_of_le_length hthere]
    exact (congrArg (List.take head.length) hreader).trans List.take_left
  apply Triple.ofExcept_bind_ok (sliceOf_eq_ok_iff.mpr ⟨Nat.zero_le _, hthere, rfl⟩)
  rw [List.drop_zero, htake, hhead.parsed, readParsed, if_neg (by simp)]
  apply Triple.ofExcept_bind_ok hhead.declared
  apply Triple.get_bind
  intro same hsame
  obtain rfl : same = reader := hsame
  apply Triple.ofExcept_bind_ok (sliceOf_eq_ok_iff.mpr ⟨hthere, Nat.le.refl, rfl⟩)
  rw [List.take_length]
  refine Triple.bind (fun _ reader => reader.content = rest) (.modify ?_) fun _ => ?_
  · -- The body starts with what was read behind the head.
    intro reader hsame
    obtain rfl : reader = same := hsame
    change reader.buf.drop head.length ++ reader.source.elements = rest
    rw [← List.drop_append_of_le_length hthere]
    exact (congrArg (List.drop head.length) hreader).trans List.drop_left
  · refine Triple.bind _ (readBody_arrives hdelivers) fun body => ?_
    apply Triple.assuming fun _ hbody => hbody
    rintro rfl
    rw [Text.fromUtf8_eq_some_iff.mpr rfl]
    exact .pure fun _ _ => rfl

end Response

/-- A list that is published as a file with at least one name, and sent with status 200 in
any of the three ways that HTTP has to end a body, within the limits of the reader: in
whatever pieces it arrives, the domains are the names of the file in their order. -/
theorem published_domains_fetched (width : PointerWidth) {httparse : Nat → List UInt8 → Response}
    {head rest : List UInt8} {headers : List Header} {declared : Option Nat} {lines : List Line}
    (hhead : Head width httparse head headers declared)
    (hdelivers : Delivers headers declared (published lines).bytes rest)
    (hnames : lines.filterMap Line.domain ≠ []) {source : Source UInt8}
    (hsource : source.elements = head ++ rest) :
    ∃ text after, readHttpResponseBody width httparse { source } = .ok text after ∧
      fetchDefaultDomains (.ok text) = lines.filterMap Line.domain := by
  have hstart : Reader.content { source } = head ++ rest ∧
      (Reader.buf { source }).length ≤ maxHeaderBytes := ⟨hsource, Nat.zero_le _⟩
  obtain ⟨text, after, hrun, rfl⟩ :=
    (readHttpResponseBody_arrives hhead hdelivers).exists_ok hstart
  refine ⟨_, after, hrun, ?_⟩
  rw [fetchDefaultDomains, parseDomainList_published]
  exact if_neg (by simpa using hnames)

theorem solid_pclead : ∀ c ∈ "pclead".toList, Text.isWhitespace c = false := by
  simp [Text.isWhitespace]

theorem unmarked_pclead : "pclead".toList.head? ≠ some '#' := by
  simp

def sampleName : PublishedName := ⟨"pclead".toList, solid_pclead, unmarked_pclead⟩

def sampleHead : List UInt8 := Text.bytes
  "HTTP/1.1 200 OK\r\nTransfer-Encoding: chunked\r\n\r\n".toList

/-- The first name of the built-in list, in two chunks and in pieces across the head. -/
theorem published_domains_fetched_chunked :
    let headers : List Header := [⟨"Transfer-Encoding".toList, Text.bytes "chunked".toList⟩]
    ∃ text after, readHttpResponseBody .bits64 (fun _ _ => .complete (some 200) headers)
        { source := [sampleHead.take 20, sampleHead.drop 20 ++ domainEncoding.bytes] } =
          .ok text after ∧
      fetchDefaultDomains (.ok text) = ["pclead.co.uk".toList] := by
  intro headers
  have hhead : Head .bits64 (fun _ _ => .complete (some 200) headers) sampleHead headers none :=
    ⟨⟨43, by decide +kernel, by decide +kernel⟩, by decide +kernel, rfl, rfl⟩
  have hbody : domainEncoding.body = (published [.name sampleName]).bytes := by decide +kernel
  have hdelivers : Delivers headers none (published [.name sampleName]).bytes
      (domainEncoding.bytes ++ []) :=
    .chunked domainEncoding [] (by decide +kernel) hbody (by decide +kernel) (by decide +kernel)
  exact published_domains_fetched .bits64 hhead hdelivers (by decide) (by decide +kernel)

end TgWsProxy.DefaultDomains
