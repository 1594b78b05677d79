import TgWsProxy.Splitter.Chunking
import TgWsProxy.Splitter.Conservation

/-!
# Flushes in the middle of a stream

A flush may come between any two calls. It hands out the packet under assembly
and forgets its header, so the bytes that follow are cut as if a packet began
there, while the cipher goes on. Cutting at the wrong places loses nothing: over
any sequence of calls and flushes the splitter returns the encrypted stream.
-/

namespace TgWsProxy.Splitter

open Foundation.Keystream Foundation.Machine TgWsProxy.Crypto

/-! ## No part is empty -/

/-- A packet of the layout has bytes, and so has the header of the packet that ends
the cut. -/
theorem CutFrom.occupied {start : Nat} {layout : Layout} (hcut : CutFrom start layout) :
    (∀ span ∈ layout.packets, span.start < span.stop) ∧
      ∀ first headerStop, layout.ending = .emptyPacket first headerStop → first < headerStop := by
  induction hcut with
  | tail start => constructor <;> simp
  | emptyPacket hheader =>
      refine ⟨by simp, ?_⟩
      intro first stop hending
      cases hending
      exact hheader
  | packet hlen _ ih => exact ⟨List.forall_mem_cons.mpr ⟨hlen, ih.1⟩, ih.2⟩

theorem extract_ne_nil {bytes : Bytes} {start stop : Nat} (hstart : start < stop)
    (hstop : stop ≤ bytes.length) : bytes.extract start stop ≠ [] := by
  apply List.ne_nil_of_length_pos
  rw [extract_length hstop]
  omega

theorem expectedParts_ne_nil (proto : ProtoTag) (whole : Bytes) {ciphertext : Bytes} {lo hi : Nat}
    (hlo : lo ≤ hi) (hhi : hi ≤ ciphertext.length) :
    ∀ part ∈ (layout proto whole).expectedParts ciphertext lo hi, part ≠ [] := by
  obtain ⟨hpackets, hending⟩ := (layoutFrom_cutFrom proto 0 whole).occupied
  intro part hpart
  rcases List.mem_append.mp hpart with hpart | hpart
  · obtain ⟨span, hspan, rfl⟩ := List.mem_map.mp hpart
    obtain ⟨hmem, hdue⟩ := List.mem_filter.mp hspan
    exact extract_ne_nil (hpackets span hmem) ((of_decide_eq_true hdue).2.trans hhi)
  · cases hcut : (layout proto whole).ending with
    | tail start =>
        rw [hcut] at hpart
        cases hpart
    | emptyPacket start headerStop =>
        have hheader := hending start headerStop hcut
        simp only [hcut] at hpart
        split at hpart
        next => cases hpart
        next hnow =>
          obtain ⟨hreached, hfed⟩ := not_or.mp hnow
          split at hpart
          next =>
            rw [List.mem_singleton.mp hpart]
            exact extract_ne_nil (hheader.trans_le (Nat.not_lt.mp hreached)) hhi
          next =>
            rw [List.mem_singleton.mp hpart]
            exact extract_ne_nil (Nat.lt_of_le_of_ne hlo hfed) hhi

/-! ## Between two calls -/

section Resuming

variable {prim : Primitives} {proto : ProtoTag} {origin : AesCtr256} {whole pending : Bytes}
  {splitter : MsgSplitter} {enc : AesCtr256}

/-- The splitter passes everything through, or it assembles a packet of which it has
the bytes since the last boundary. What came before does not matter. -/
def Resumes (prim : Primitives) (proto : ProtoTag) (splitter : MsgSplitter) (enc : AesCtr256) :
    Prop :=
  (∃ origin pending, Assembling prim proto origin pending [] 0 pending.length splitter enc) ∨
    (splitter.disabled = true ∧ splitter.packet = [])

/-- The bytes to come can be added to the stream. -/
theorem Assembling.lengthen
    (hasm : Assembling prim proto origin pending [] 0 pending.length splitter enc)
    (chunk : Bytes) :
    Assembling prim proto origin (pending ++ chunk) [] 0 pending.length splitter enc := by
  refine ⟨hasm.same_proto, hasm.enabled, hasm.start_le, by simp, hasm.cipher, ?_, ?_, rfl, rfl,
    by simp⟩
  · rw [hasm.packet, Cipher.mask_extract, Cipher.mask_extract]
    simp [List.extract_eq_take_drop]
  · have hremembers := hasm.remembers
    simpa [List.extract_eq_take_drop] using hremembers

/-- The bytes before the packet under assembly can be forgotten. -/
theorem Assembling.rebase {done : List Span} {start : Nat}
    (hasm : Assembling prim proto origin whole done start whole.length splitter enc) :
    Assembling prim proto (origin.advance start) (whole.drop start) [] 0
      (whole.drop start).length splitter enc := by
  have hstart := hasm.start_le
  have hdrop : whole.extract start whole.length = whole.drop start := by
    rw [List.extract_eq_take_drop, ← List.length_drop, List.take_length]
  have hall : (whole.drop start).extract 0 (whole.drop start).length = whole.drop start := by
    simp [List.extract_eq_take_drop]
  refine ⟨hasm.same_proto, hasm.enabled, Nat.zero_le _, Nat.le_refl _, ?_, ?_, ?_, rfl, rfl,
    by simp⟩
  · rw [hasm.cipher, Cipher.advance_advance, List.length_drop, Nat.add_sub_cancel' hstart]
  · rw [hasm.packet, Cipher.mask_extract, Cipher.mask_extract, hdrop, hall, Cipher.advance_zero]
  · rw [hall, ← hdrop]
    exact hasm.remembers

theorem Tracks.resumes (htracks : Tracks prim proto origin whole whole.length splitter enc) :
    Resumes prim proto splitter enc := by
  rcases htracks with ⟨done, start, hasm⟩ | hbypassed
  · exact .inl ⟨_, _, hasm.rebase⟩
  · exact .inr ⟨hbypassed.disabled, hbypassed.packet⟩

theorem Resumes.settled (hresumes : Resumes prim proto splitter enc) : splitter.Settled := by
  intro hdisabled
  rcases hresumes with ⟨origin, pending, hasm⟩ | ⟨-, hpacket⟩
  · rw [hasm.enabled] at hdisabled
    cases hdisabled
  · exact hpacket

/-- A call returns, and none of its parts is empty. -/
theorem Resumes.splitAndEncrypt (width : PointerWidth)
    (hresumes : Resumes prim proto splitter enc) (chunk : Bytes) :
    ∃ parts splitter' enc',
      splitter.splitAndEncrypt prim width chunk enc = .ok (parts, splitter', enc') ∧
      Resumes prim proto splitter' enc' ∧ ∀ part ∈ parts, part ≠ [] := by
  rcases hresumes with ⟨origin, pending, hasm⟩ | ⟨hdisabled, hpacket⟩
  · have htracks : Tracks prim proto origin (pending ++ chunk) pending.length splitter enc :=
      .inl ⟨[], 0, hasm.lengthen chunk⟩
    have hle : pending.length ≤ (pending ++ chunk).length := by simp
    have hchunk : (pending ++ chunk).extract pending.length (pending ++ chunk).length = chunk := by
      simp [List.extract_eq_take_drop]
    obtain ⟨splitter', enc', hcall, htracks'⟩ :=
      splitAndEncrypt_tracks width htracks hle (Nat.le_refl _)
    rw [hchunk] at hcall
    exact ⟨_, splitter', enc', hcall, htracks'.resumes,
      expectedParts_ne_nil proto (pending ++ chunk) hle (by simp)⟩
  · unfold MsgSplitter.splitAndEncrypt
    by_cases hchunk : chunk = []
    · rw [if_pos hchunk]
      exact ⟨[], splitter, enc, rfl, .inr ⟨hdisabled, hpacket⟩,
        fun _ hmem => (List.not_mem_nil hmem).elim⟩
    · rw [if_neg hchunk, if_pos hdisabled]
      refine ⟨_, splitter, _, rfl, .inr ⟨hdisabled, hpacket⟩, ?_⟩
      intro part hpart
      rw [List.mem_singleton.mp hpart]
      apply List.ne_nil_of_length_pos
      simpa using List.length_pos_of_ne_nil hchunk

/-- A flush leaves nothing under assembly, and the next byte begins a packet. -/
theorem Resumes.flush (hresumes : Resumes prim proto splitter enc) :
    Resumes prim proto splitter.flush.2 enc ∧ ∀ part ∈ splitter.flush.1, part ≠ [] := by
  unfold MsgSplitter.flush
  split
  next => exact ⟨hresumes, fun _ hmem => (List.not_mem_nil hmem).elim⟩
  next hpacket =>
    refine ⟨?_, fun part hpart => ?_⟩
    · rcases hresumes with ⟨origin, pending, hasm⟩ | ⟨hdisabled, -⟩
      · refine .inl ⟨enc, [], hasm.same_proto, hasm.enabled, Nat.le_refl 0, Nat.le_refl 0, rfl, rfl,
          ⟨⟨rfl, rfl⟩, ?_⟩, rfl, rfl, by simp⟩
        rw [hasm.same_proto]
        cases proto <;> rfl
      · exact .inr ⟨hdisabled, rfl⟩
    · rw [List.mem_singleton.mp hpart]
      exact hpacket

end Resuming

theorem flush_conserved (splitter : MsgSplitter) :
    splitter.flush.1.flatten ++ splitter.flush.2.packet = splitter.packet ∧
      splitter.flush.2.packet = [] := by
  unfold MsgSplitter.flush
  split
  next hpacket => exact ⟨rfl, hpacket⟩
  next => simp

/-! ## Calls and flushes in any order -/

/-- What a bridge may do with a splitter. -/
inductive Call
  | feed (chunk : Bytes)
  | flush

def Call.bytes : Call → Bytes
  | .feed chunk => chunk
  | .flush => []

/-- Everything that is fed, in order. -/
def fed (calls : List Call) : Bytes := calls.flatMap Call.bytes

namespace MsgSplitter

def perform (prim : Primitives) (width : PointerWidth) (splitter : MsgSplitter)
    (enc : AesCtr256) : Call → Except Fault (List Bytes × MsgSplitter × AesCtr256)
  | .feed chunk => splitter.splitAndEncrypt prim width chunk enc
  | .flush => .ok (splitter.flush.1, splitter.flush.2, enc)

/-- All parts that the calls returned, in order. -/
def performAll (prim : Primitives) (width : PointerWidth) (splitter : MsgSplitter)
    (enc : AesCtr256) : List Call → Except Fault (List Bytes × MsgSplitter × AesCtr256)
  | [] => .ok ([], splitter, enc)
  | call :: calls => do
      let (parts, splitter, enc) ← splitter.perform prim width enc call
      let (later, splitter, enc) ← performAll prim width splitter enc calls
      return (parts ++ later, splitter, enc)

end MsgSplitter

section Calls

variable (prim : Primitives) (width : PointerWidth)

/-- What one call returns and what stays under assembly. -/
structure Conserves (splitter : MsgSplitter) (enc : AesCtr256) (bytes : Bytes) (parts : List Bytes)
    (splitter' : MsgSplitter) (enc' : AesCtr256) : Prop where
  content : parts.flatten ++ splitter'.packet = splitter.packet ++ enc.mask prim.ks bytes
  cipher : enc' = enc.advance bytes.length
  occupied : ∀ part ∈ parts, part ≠ []

theorem perform_conserves {proto : ProtoTag} {splitter : MsgSplitter} {enc : AesCtr256}
    (hresumes : Resumes prim proto splitter enc) (call : Call) :
    ∃ parts splitter' enc', splitter.perform prim width enc call = .ok (parts, splitter', enc') ∧
      Resumes prim proto splitter' enc' ∧
      Conserves prim splitter enc call.bytes parts splitter' enc' := by
  cases call with
  | feed chunk =>
      obtain ⟨parts, splitter', enc', hcall, hnext, hparts⟩ :=
        hresumes.splitAndEncrypt width chunk
      obtain ⟨hcontent, hcipher, -⟩ :=
        MsgSplitter.splitAndEncrypt_conserved prim width hresumes.settled hcall
      exact ⟨parts, splitter', enc', hcall, hnext, hcontent, hcipher, hparts⟩
  | flush =>
      obtain ⟨hnext, hparts⟩ := hresumes.flush
      refine ⟨_, _, _, rfl, hnext, ?_, rfl, hparts⟩
      rw [(flush_conserved splitter).1]
      exact (List.append_nil _).symm

theorem performAll_conserves {proto : ProtoTag} (calls : List Call) {splitter : MsgSplitter}
    {enc : AesCtr256} (hresumes : Resumes prim proto splitter enc) :
    ∃ parts splitter' enc',
      splitter.performAll prim width enc calls = .ok (parts, splitter', enc') ∧
      Resumes prim proto splitter' enc' ∧
      Conserves prim splitter enc (fed calls) parts splitter' enc' := by
  induction calls generalizing splitter enc with
  | nil =>
      refine ⟨[], splitter, enc, rfl, hresumes, ?_, rfl,
        fun _ hmem => (List.not_mem_nil hmem).elim⟩
      exact (List.append_nil _).symm
  | cons call calls ih =>
      obtain ⟨parts, middle, enc₁, hcall, hmiddle, hfirst⟩ :=
        perform_conserves prim width hresumes call
      obtain ⟨later, last, enc₂, hcalls, hlast, hrest⟩ := ih hmiddle
      refine ⟨parts ++ later, last, enc₂, ?_, hlast, ?_, ?_, ?_⟩
      · simp [MsgSplitter.performAll, hcall, hcalls, bind, Except.bind, pure, Except.pure]
      · have hcipher := hfirst.cipher
        subst hcipher
        have hsplit : fed (call :: calls) = call.bytes ++ fed calls := List.flatMap_cons
        rw [List.flatten_append, List.append_assoc, hrest.content, ← List.append_assoc,
          hfirst.content, List.append_assoc, ← Cipher.mask_append, hsplit]
      · have hsplit : fed (call :: calls) = call.bytes ++ fed calls := List.flatMap_cons
        rw [hrest.cipher, hfirst.cipher, Cipher.advance_advance, hsplit, List.length_append]
      · intro part hpart
        rcases List.mem_append.mp hpart with hpart | hpart
        · exact hfirst.occupied part hpart
        · exact hrest.occupied part hpart

/-- Conservation over every partition of every stream, with flushes anywhere: all calls
return, their parts and those of a last flush are the stream encrypted in one go, the
cipher has moved by the bytes fed, and no part is empty. -/
theorem performAll_new_conserves (proto : ProtoTag) (enc : AesCtr256) (calls : List Call) :
    ∃ parts splitter enc',
      (MsgSplitter.new proto).performAll prim width enc calls = .ok (parts, splitter, enc') ∧
      parts.flatten ++ splitter.flush.1.flatten =
        (enc.applyKeystream prim.ks (fed calls)).1 ∧
      enc' = enc.advance (fed calls).length ∧
      (∀ part ∈ parts, part ≠ []) ∧ ∀ part ∈ splitter.flush.1, part ≠ [] := by
  have hnew : Resumes prim proto (MsgSplitter.new proto) enc :=
    (@new_tracks prim proto enc []).resumes
  obtain ⟨parts, splitter, enc', hcalls, hresumes, hconserves⟩ :=
    performAll_conserves prim width calls hnew
  refine ⟨parts, splitter, enc', hcalls, ?_, hconserves.cipher, hconserves.occupied,
    hresumes.flush.2⟩
  obtain ⟨hflush, hempty⟩ := flush_conserved splitter
  rw [hempty, List.append_nil] at hflush
  rw [hflush, hconserves.content]
  rfl

end Calls

end TgWsProxy.Splitter
