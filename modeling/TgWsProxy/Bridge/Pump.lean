import TgWsProxy.Bridge.Model
import TgWsProxy.Splitter.Refinement

/-!
# Pumps deliver what they read

A pump keeps the decrypting cipher of one side and the encrypting cipher of the
other at the same stream position, whatever the reads and the interleaved
control frames are. When no write fails it delivers the whole stream; a failed
write ends the session early, with a prefix delivered.
-/

namespace TgWsProxy.Bridge

open Foundation.Keystream TgWsProxy.Crypto TgWsProxy.Splitter

/-! ## What the sockets deliver -/

/-- The bytes that a sequence of reads delivers up to the end of the stream;
`none` while the stream is still open. -/
def streamOf : List ReadResult → Option Bytes
  | [] => none
  | .err :: _ => some []
  | .ok chunk :: reads => if chunk = [] then some [] else (streamOf reads).map (chunk ++ ·)

/-- The bytes carried by the data messages up to the end of the connection. -/
def payloadOf : List WsEvent → Option Bytes
  | [] => none
  | .ended :: _ => some []
  | .ping _ :: events | .pong _ :: events => payloadOf events
  | .binary data :: events | .text data :: events => (payloadOf events).map (data ++ ·)

/-! ## Sinks -/

/-- No coming write fails. -/
def Sink.Reliable (sink : Sink) : Prop := ∀ result ∈ sink.results, result = true

theorem Sink.send_cases (sink : Sink) (message : Bytes) :
    ((sink.send message).2 = true ∧
        (sink.send message).1.accepted = sink.accepted ++ [message] ∧
        (sink.Reliable → (sink.send message).1.Reliable)) ∨
      ((sink.send message).2 = false ∧ (sink.send message).1.accepted = sink.accepted ∧
        ¬ sink.Reliable) := by
  unfold Sink.send
  split
  next hresults =>
    left
    exact ⟨rfl, rfl, fun hreliable => hreliable⟩
  next results hresults =>
    left
    refine ⟨rfl, rfl, ?_⟩
    intro hreliable result hresult
    exact hreliable result (by rw [hresults]; exact List.mem_cons_of_mem _ hresult)
  next results hresults =>
    right
    refine ⟨rfl, rfl, ?_⟩
    intro hreliable
    have := hreliable false (by rw [hresults]; exact List.mem_cons_self)
    cases this

/-- The parts a sink accepted are the first ones, and all of them on success. -/
theorem Sink.sendParts_cases (sink : Sink) (parts : List Bytes) :
    ((sink.sendParts parts).2 = true ∧
        (sink.sendParts parts).1.accepted = sink.accepted ++ parts ∧
        (sink.Reliable → (sink.sendParts parts).1.Reliable)) ∨
      ((sink.sendParts parts).2 = false ∧ ¬ sink.Reliable ∧
        ∃ sent, sent <+: parts ∧ (sink.sendParts parts).1.accepted = sink.accepted ++ sent) := by
  induction parts generalizing sink with
  | nil =>
      left
      exact ⟨rfl, (List.append_nil _).symm, fun hreliable => hreliable⟩
  | cons part parts ih =>
      unfold Sink.sendParts
      have hsend := sink.send_cases part
      cases hpart : sink.send part with
      | mk next sent =>
          rw [hpart] at hsend
          cases sent with
          | true =>
              rcases hsend with ⟨_, haccepted, hreliable⟩ | ⟨hfalse, _⟩
              · rcases ih next with ⟨hok, hall, hkeep⟩ | ⟨hfail, hbad, sent, hsent, hsome⟩
                · left
                  refine ⟨hok, ?_, fun h => hkeep (hreliable h)⟩
                  rw [hall, haccepted, List.append_assoc]
                  rfl
                · right
                  refine ⟨hfail, fun h => hbad (hreliable h), part :: sent,
                    (List.prefix_cons_inj part).mpr hsent, ?_⟩
                  rw [hsome, haccepted, List.append_assoc]
                  rfl
              · cases hfalse
          | false =>
              rcases hsend with ⟨htrue, _⟩ | ⟨_, haccepted, hbad⟩
              · cases htrue
              · right
                exact ⟨rfl, hbad, [], List.nil_prefix, by rw [haccepted, List.append_nil]⟩

/-! ## Deliveries -/

/-- The sink accepted the opening messages and then the ciphertext of `plain`,
in whatever pieces. -/
def Delivered (prim : Primitives) (cipher : AesCtr256) (opening : List Bytes) (plain : Bytes)
    (sink : Sink) : Prop :=
  ∃ body, sink.accepted = opening ++ body ∧ cipher.mask prim.ks body.flatten = plain

/-- What a session delivers of `plain`: all of it when no write fails, and
otherwise a prefix, or nothing at all when already the opening failed. -/
structure Carried (prim : Primitives) (cipher : AesCtr256) (opening : List Bytes) (plain : Bytes)
    (results : List Bool) (sink : Sink) : Prop where
  all : (∀ result ∈ results, result = true) → Delivered prim cipher opening plain sink
  partly : sink.accepted = [] ∨
    ∃ sent, sent <+: plain ∧ Delivered prim cipher opening sent sink

section Pump

variable (prim : Primitives) (source dest : AesCtr256) (plain : Bytes) (opening : List Bytes)

/-- Both ciphers of a pump stand at `pos`, and so does the sink. -/
structure Pumped (pos : Nat) (pump : Pump) : Prop where
  pos_le : pos ≤ plain.length
  dec : pump.dec = source.advance pos
  enc : pump.enc = dest.advance pos
  delivered : Delivered prim dest opening (plain.take pos) pump.sink

variable {prim source dest plain opening}

/-- Decrypting a piece of the masked stream at its position. -/
theorem mask_extract_mask {pos next : Nat} {chunk : Bytes}
    (hchunk : (source.mask prim.ks plain).extract pos next = chunk) :
    (source.advance pos).mask prim.ks chunk = plain.extract pos next := by
  rw [← hchunk, Cipher.mask_extract, Cipher.mask_mask]

theorem Delivered.extend {pos next : Nat} {sink : Sink} {parts : List Bytes}
    (hdelivered : Delivered prim dest opening (plain.take pos) sink)
    (hpos : pos ≤ plain.length) (hnext : pos ≤ next) {extended : Sink}
    (haccepted : extended.accepted = sink.accepted ++ parts)
    (hparts : parts.flatten = (dest.advance pos).mask prim.ks (plain.extract pos next)) :
    Delivered prim dest opening (plain.take next) extended := by
  obtain ⟨body, hbody, hplain⟩ := hdelivered
  have hlength : body.flatten.length = pos := by
    have := congrArg List.length hplain
    simp only [Cipher.mask_length, List.length_take] at this
    omega
  refine ⟨body ++ parts, ?_, ?_⟩
  · rw [haccepted, hbody, List.append_assoc]
  · rw [List.flatten_append, Cipher.mask_append, hplain, hlength, hparts, Cipher.mask_mask,
      take_append_extract plain hnext]

/-- One chunk through a pump. -/
theorem Pumped.forward {pos : Nat} {pump : Pump}
    (hpumped : Pumped prim source dest plain opening pos pump) {chunk : Bytes}
    (hwithin : pos + chunk.length ≤ plain.length)
    (hchunk : (source.mask prim.ks plain).extract pos (pos + chunk.length) = chunk) :
    ((pump.forward prim chunk).2 = true ∧
        Pumped prim source dest plain opening (pos + chunk.length) (pump.forward prim chunk).1 ∧
        (pump.sink.Reliable → (pump.forward prim chunk).1.sink.Reliable)) ∨
      ((pump.forward prim chunk).2 = false ∧ ¬ pump.sink.Reliable ∧
        (pump.forward prim chunk).1.sink.accepted = pump.sink.accepted) := by
  have hplain := mask_extract_mask hchunk
  rw [← hpumped.dec] at hplain
  have hlength : (plain.extract pos (pos + chunk.length)).length = chunk.length := by
    rw [extract_length hwithin, Nat.add_sub_cancel_left]
  rcases pump.sink.send_cases (pump.enc.mask prim.ks (pump.dec.mask prim.ks chunk)) with
    ⟨hsent, haccepted, hreliable⟩ | ⟨hfailed, haccepted, hbad⟩
  · left
    refine ⟨hsent, ⟨hwithin, ?_, ?_, ?_⟩, hreliable⟩
    · simp [Pump.forward, hpumped.dec]
    · simp [Pump.forward, hpumped.enc]
    · refine hpumped.delivered.extend hpumped.pos_le (Nat.le_add_right _ _) haccepted ?_
      rw [List.flatten_singleton, hplain, hpumped.enc]
  · right
    exact ⟨hfailed, hbad, haccepted⟩

/-- How a pump that now has the sink `before` ends up. -/
structure Finishes (prim : Primitives) (dest : AesCtr256) (plain : Bytes) (opening : List Bytes)
    (before after : Sink) : Prop where
  all : before.Reliable → Delivered prim dest opening plain after
  partly : ∃ sent, sent <+: plain ∧ Delivered prim dest opening sent after

/-- At the end of its input a pump has delivered everything. -/
theorem Pumped.finishes {pos : Nat} {pump : Pump}
    (hpumped : Pumped prim source dest plain opening pos pump)
    (hend : (source.mask prim.ks plain).drop pos = []) :
    Finishes prim dest plain opening pump.sink pump.sink := by
  have hlength := congrArg List.length hend
  simp only [List.length_drop, Cipher.mask_length, List.length_nil] at hlength
  have hdelivered := hpumped.delivered
  rw [List.take_of_length_le (by omega)] at hdelivered
  exact ⟨fun _ => hdelivered, plain, List.prefix_rfl, hdelivered⟩

/-- A turn of either loop: on success the rest of the loop decides, on failure
the pump stops where it is. -/
theorem Pumped.turn {pos : Nat} {pump : Pump}
    (hpumped : Pumped prim source dest plain opening pos pump) {chunk rest : Bytes}
    (hsplit : (source.mask prim.ks plain).drop pos = chunk ++ rest) (loop : Pump → Pump)
    (hloop : ∀ next, Pumped prim source dest plain opening (pos + chunk.length) next →
      (source.mask prim.ks plain).drop (pos + chunk.length) = rest →
      Finishes prim dest plain opening next.sink (loop next).sink) :
    Finishes prim dest plain opening pump.sink
      (match pump.forward prim chunk with
        | (next, true) => loop next
        | (next, false) => next).sink := by
  obtain ⟨hwithin, hpiece, hrest⟩ := extract_of_drop_eq (by simpa using hpumped.pos_le) hsplit
  have hforward := hpumped.forward (by simpa using hwithin) hpiece
  cases hnext : pump.forward prim chunk with
  | mk next sent =>
      rw [hnext] at hforward
      cases sent with
      | true =>
          rcases hforward with ⟨_, hnextPumped, hreliable⟩ | ⟨hfalse, _⟩
          · obtain ⟨hall, hpartly⟩ := hloop next hnextPumped hrest
            exact ⟨fun h => hall (hreliable h), hpartly⟩
          · cases hfalse
      | false =>
          rcases hforward with ⟨htrue, _⟩ | ⟨_, hbad, haccepted⟩
          · cases htrue
          · obtain ⟨body, hbody, hplain⟩ := hpumped.delivered
            exact ⟨fun h => absurd h hbad, plain.take pos, List.take_prefix _ _, body,
              haccepted.trans hbody, hplain⟩

/-- A whole sequence of reads through a pump. -/
theorem Pumped.reads {pos : Nat} {pump : Pump}
    (hpumped : Pumped prim source dest plain opening pos pump) {reads : List ReadResult}
    (hreads : streamOf reads = some ((source.mask prim.ks plain).drop pos)) :
    Finishes prim dest plain opening pump.sink (pump.reads prim reads).sink := by
  induction reads generalizing pos pump with
  | nil => simp [streamOf] at hreads
  | cons read rest ih =>
      cases read with
      | err => exact hpumped.finishes (Option.some.inj hreads).symm
      | ok chunk =>
          unfold Pump.reads
          by_cases hchunk : chunk = []
          · rw [if_pos hchunk]
            apply hpumped.finishes
            simpa [streamOf, hchunk] using hreads.symm
          · rw [if_neg hchunk]
            simp only [streamOf, if_neg hchunk, Option.map_eq_some_iff] at hreads
            obtain ⟨later, hlater, hsplit⟩ := hreads
            apply hpumped.turn hsplit.symm
            intro next hnext hdrop
            exact ih hnext (by rw [hdrop, hlater])

/-- A whole sequence of WebSocket messages through a pump. -/
theorem Pumped.events {pos : Nat} {pump : Pump}
    (hpumped : Pumped prim source dest plain opening pos pump) {events : List WsEvent}
    (hevents : payloadOf events = some ((source.mask prim.ks plain).drop pos)) :
    Finishes prim dest plain opening pump.sink (pump.events prim events).sink := by
  induction events generalizing pos pump with
  | nil => simp [payloadOf] at hevents
  | cons event rest ih =>
      cases event with
      | ended => exact hpumped.finishes (Option.some.inj hevents).symm
      | ping data | pong data => exact ih hpumped hevents
      | binary data | text data =>
          simp only [payloadOf, Option.map_eq_some_iff] at hevents
          obtain ⟨later, hlater, hsplit⟩ := hevents
          unfold Pump.events
          apply hpumped.turn hsplit.symm
          intro next hnext hdrop
          exact ih hnext (by rw [hdrop, hlater])

end Pump

end TgWsProxy.Bridge
