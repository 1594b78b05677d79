import Mathlib.Data.List.Infix
import Mathlib.Data.List.TakeDrop

/-!
# Keystream ciphers over byte streams

A counter-mode stream cipher masks the byte at position `pos` with a keystream
byte that depends only on the seed and on `pos`. A cipher value is therefore a
seed together with the next unused position, and two ciphers with the same
seed and position undo each other, however the two sides cut the stream.

A `Link` joins an encrypting and a decrypting cipher through a byte queue. Its
invariant says that what has been read is always a prefix of what was written.
-/

namespace Foundation.Keystream

/-- XOR `data` with the keystream bytes from position `pos` on. -/
def xorFrom (stream : Nat → UInt8) : Nat → List UInt8 → List UInt8
  | _, [] => []
  | pos, byte :: rest => (byte ^^^ stream pos) :: xorFrom stream (pos + 1) rest

@[simp] theorem xorFrom_nil (stream : Nat → UInt8) (pos : Nat) :
    xorFrom stream pos [] = [] := rfl

@[simp] theorem xorFrom_length (stream : Nat → UInt8) (pos : Nat) (data : List UInt8) :
    (xorFrom stream pos data).length = data.length := by
  induction data generalizing pos with
  | nil => rfl
  | cons byte rest ih => simp [xorFrom, ih]

theorem xorFrom_append (stream : Nat → UInt8) (pos : Nat) (left right : List UInt8) :
    xorFrom stream pos (left ++ right) =
      xorFrom stream pos left ++ xorFrom stream (pos + left.length) right := by
  induction left generalizing pos with
  | nil => simp
  | cons byte rest ih =>
      simp only [List.cons_append, xorFrom, ih, List.length_cons]
      rw [Nat.add_right_comm, Nat.add_assoc pos]

/-- Masking twice from the same position gives the data back. -/
@[simp] theorem xorFrom_xorFrom (stream : Nat → UInt8) (pos : Nat) (data : List UInt8) :
    xorFrom stream pos (xorFrom stream pos data) = data := by
  induction data generalizing pos with
  | nil => rfl
  | cons byte rest ih =>
      rw [xorFrom, xorFrom, ih, UInt8.xor_assoc, UInt8.xor_self, UInt8.xor_zero]

theorem xorFrom_take (stream : Nat → UInt8) (pos count : Nat) (data : List UInt8) :
    (xorFrom stream pos data).take count = xorFrom stream pos (data.take count) := by
  induction data generalizing pos count with
  | nil => simp
  | cons byte rest ih => cases count <;> simp [xorFrom, ih]

theorem xorFrom_drop (stream : Nat → UInt8) (pos count : Nat) (data : List UInt8) :
    (xorFrom stream pos data).drop count = xorFrom stream (pos + count) (data.drop count) := by
  induction data generalizing pos count with
  | nil => simp
  | cons byte rest ih =>
      cases count with
      | zero => simp
      | succ count =>
          simp only [xorFrom, List.drop_succ_cons, ih]
          rw [Nat.add_right_comm, Nat.add_assoc]

/-- A contiguous piece of the masked stream is the masked piece. -/
theorem xorFrom_extract (stream : Nat → UInt8) (pos start stop : Nat) (data : List UInt8) :
    (xorFrom stream pos data).extract start stop =
      xorFrom stream (pos + start) (data.extract start stop) := by
  simp only [List.extract_eq_take_drop, xorFrom_drop, xorFrom_take]

/-- Masking zero bytes exposes the keystream itself: XOR-ing it into `data`
is masking `data`. -/
theorem zipWith_xorFrom_replicate (stream : Nat → UInt8) (pos : Nat) (data : List UInt8) :
    List.zipWith (· ^^^ ·) data (xorFrom stream pos (List.replicate data.length 0)) =
      xorFrom stream pos data := by
  induction data generalizing pos with
  | nil => rfl
  | cons byte rest ih => simp [List.replicate_succ, xorFrom, ih]

/-- The keystream recovered from masked and plain data masks any other data of that
length. -/
theorem zipWith_zipWith_xorFrom (stream : Nat → UInt8) (pos : Nat) {data other : List UInt8}
    (hlength : other.length = data.length) :
    List.zipWith (· ^^^ ·) other (List.zipWith (· ^^^ ·) (xorFrom stream pos data) data) =
      xorFrom stream pos other := by
  induction data generalizing pos other with
  | nil =>
      rw [List.length_eq_zero_iff.mp hlength]
      rfl
  | cons byte data ih =>
      cases other with
      | nil => cases hlength
      | cons head other =>
          have hstream : byte ^^^ stream pos ^^^ byte = stream pos := by
            rw [UInt8.xor_comm, ← UInt8.xor_assoc, UInt8.xor_self, UInt8.zero_xor]
          simp only [xorFrom, List.zipWith_cons_cons, hstream, ih (pos + 1) (Nat.succ.inj hlength)]

/-! ## Ciphers -/

/-- The seed a cipher was keyed with and the next keystream position it uses. -/
structure Cipher (Seed : Type*) where
  seed : Seed
  pos : Nat
  deriving DecidableEq, Repr

namespace Cipher

variable {Seed : Type*} (ks : Seed → Nat → UInt8)

/-- The bytes that applying the cipher to `data` leaves in the buffer. -/
def mask (cipher : Cipher Seed) (data : List UInt8) : List UInt8 :=
  xorFrom (ks cipher.seed) cipher.pos data

/-- The cipher after `count` more keystream bytes have been used. -/
def advance (cipher : Cipher Seed) (count : Nat) : Cipher Seed :=
  { cipher with pos := cipher.pos + count }

/-- Apply the keystream to a buffer: the masked bytes and the moved cipher. -/
def applyKeystream (cipher : Cipher Seed) (data : List UInt8) : List UInt8 × Cipher Seed :=
  (cipher.mask ks data, cipher.advance data.length)

@[simp] theorem applyKeystream_fst (cipher : Cipher Seed) (data : List UInt8) :
    (cipher.applyKeystream ks data).1 = cipher.mask ks data := rfl

@[simp] theorem applyKeystream_snd (cipher : Cipher Seed) (data : List UInt8) :
    (cipher.applyKeystream ks data).2 = cipher.advance data.length := rfl

@[simp] theorem advance_pos (cipher : Cipher Seed) (count : Nat) :
    (cipher.advance count).pos = cipher.pos + count := rfl

@[simp] theorem advance_zero (cipher : Cipher Seed) : cipher.advance 0 = cipher := rfl

@[simp] theorem advance_advance (cipher : Cipher Seed) (first second : Nat) :
    (cipher.advance first).advance second = cipher.advance (first + second) := by
  simp [advance, Nat.add_assoc]

@[simp] theorem mask_nil (cipher : Cipher Seed) : cipher.mask ks [] = [] := rfl

@[simp] theorem mask_length (cipher : Cipher Seed) (data : List UInt8) :
    (cipher.mask ks data).length = data.length := xorFrom_length _ _ _

@[simp] theorem mask_mask (cipher : Cipher Seed) (data : List UInt8) :
    cipher.mask ks (cipher.mask ks data) = data := xorFrom_xorFrom _ _ _

theorem mask_append (cipher : Cipher Seed) (left right : List UInt8) :
    cipher.mask ks (left ++ right) =
      cipher.mask ks left ++ (cipher.advance left.length).mask ks right :=
  xorFrom_append _ _ _ _

theorem mask_take (cipher : Cipher Seed) (count : Nat) (data : List UInt8) :
    (cipher.mask ks data).take count = cipher.mask ks (data.take count) :=
  xorFrom_take _ _ _ _

theorem mask_drop (cipher : Cipher Seed) (count : Nat) (data : List UInt8) :
    (cipher.mask ks data).drop count = (cipher.advance count).mask ks (data.drop count) :=
  xorFrom_drop _ _ _ _

theorem mask_extract (cipher : Cipher Seed) (start stop : Nat) (data : List UInt8) :
    (cipher.mask ks data).extract start stop =
      (cipher.advance start).mask ks (data.extract start stop) :=
  xorFrom_extract _ _ _ _ _

end Cipher

/-! ## Links -/

/-- One direction of a conversation: the writer's cipher, the reader's cipher,
the masked bytes in flight, and everything written and read so far. -/
structure Link (Seed : Type*) where
  enc : Cipher Seed
  dec : Cipher Seed
  sent : List UInt8
  wire : List UInt8
  received : List UInt8

namespace Link

variable {Seed : Type*} (ks : Seed → Nat → UInt8)

/-- A link on which nothing has been written yet. -/
def fresh (enc dec : Cipher Seed) : Link Seed := ⟨enc, dec, [], [], []⟩

/-- The writer masks `data` and appends it to the wire. -/
def write (data : List UInt8) (link : Link Seed) : Link Seed :=
  let (masked, enc) := link.enc.applyKeystream ks data
  { link with enc, wire := link.wire ++ masked, sent := link.sent ++ data }

/-- The reader takes at most `count` bytes off the wire and unmasks them. -/
def read (count : Nat) (link : Link Seed) : Link Seed :=
  let (plain, dec) := link.dec.applyKeystream ks (link.wire.take count)
  { link with dec, wire := link.wire.drop count, received := link.received ++ plain }

/-- The two ciphers share their seed, the reader lags by exactly the bytes in
flight, and these are the masked form of what was written but not yet read. -/
structure Synchronized (link : Link Seed) : Prop where
  seed : link.dec.seed = link.enc.seed
  pos : link.dec.pos + link.wire.length = link.enc.pos
  split : link.sent = link.received ++ link.dec.mask ks link.wire

theorem fresh_synchronized (cipher : Cipher Seed) :
    (fresh cipher cipher).Synchronized ks := by
  constructor <;> simp [fresh]

theorem Synchronized.write {link : Link Seed} (hlink : link.Synchronized ks)
    (data : List UInt8) : (link.write ks data).Synchronized ks := by
  have hreader : link.dec.advance link.wire.length = link.enc := by
    obtain ⟨hseed, hpos, _⟩ := hlink
    cases henc : link.enc
    simp only [henc] at hseed hpos
    simp [Cipher.advance, hseed, hpos]
  refine ⟨hlink.seed, ?_, ?_⟩
  · simp only [Link.write, Cipher.applyKeystream_fst, Cipher.applyKeystream_snd,
      List.length_append, Cipher.mask_length, Cipher.advance_pos]
    rw [← Nat.add_assoc, hlink.pos]
  · simp only [Link.write, Cipher.applyKeystream_fst]
    rw [Cipher.mask_append, hreader, Cipher.mask_mask, hlink.split, List.append_assoc]

theorem Synchronized.read {link : Link Seed} (hlink : link.Synchronized ks)
    (count : Nat) : (link.read ks count).Synchronized ks := by
  refine ⟨hlink.seed, ?_, ?_⟩
  · simp only [Link.read, Cipher.applyKeystream_snd, Cipher.advance_pos, List.length_take,
      List.length_drop, ← hlink.pos]
    omega
  · simp only [Link.read, Cipher.applyKeystream_fst, Cipher.applyKeystream_snd]
    -- The bytes read and the bytes left on the wire are masked consecutively.
    rw [hlink.split, List.append_assoc]
    congr 1
    by_cases hcount : count ≤ link.wire.length
    · rw [List.length_take_of_le hcount, ← Cipher.mask_drop, ← Cipher.mask_take,
        List.take_append_drop]
    · rw [List.take_of_length_le (by omega), List.drop_eq_nil_of_le (by omega)]
      simp

/-- On a synchronized link the reader has a prefix of what was written. -/
theorem Synchronized.received_prefix_sent {link : Link Seed} (hlink : link.Synchronized ks) :
    link.received <+: link.sent := ⟨_, hlink.split.symm⟩

/-- Once nothing is in flight the reader has exactly what was written. -/
theorem Synchronized.received_eq {link : Link Seed} (hlink : link.Synchronized ks)
    (hwire : link.wire = []) : link.received = link.sent := by
  rw [hlink.split, hwire, Cipher.mask_nil, List.append_nil]

end Link

/-! ## Conversations -/

/-- What one of the two ends of a conversation does on one direction. -/
inductive LinkEvent
  | write (data : List UInt8)
  | read (count : Nat)

/-- A two-way conversation: one link for each direction. -/
structure Duplex (Seed : Type*) where
  up : Link Seed
  down : Link Seed

namespace Duplex

variable {Seed : Type*} (ks : Seed → Nat → UInt8)

/-- One event, on the upward link when the flag is `true`. -/
def step (duplex : Duplex Seed) : Bool × LinkEvent → Duplex Seed
  | (true, .write data) => { duplex with up := duplex.up.write ks data }
  | (true, .read count) => { duplex with up := duplex.up.read ks count }
  | (false, .write data) => { duplex with down := duplex.down.write ks data }
  | (false, .read count) => { duplex with down := duplex.down.read ks count }

/-- Any interleaving of writes and reads in both directions. -/
def run (duplex : Duplex Seed) (events : List (Bool × LinkEvent)) : Duplex Seed :=
  events.foldl (step ks) duplex

theorem step_synchronized (duplex : Duplex Seed) (event : Bool × LinkEvent)
    (hduplex : duplex.up.Synchronized ks ∧ duplex.down.Synchronized ks) :
    (duplex.step ks event).up.Synchronized ks ∧ (duplex.step ks event).down.Synchronized ks := by
  obtain ⟨hup, hdown⟩ := hduplex
  match event with
  | (true, .write data) => exact ⟨hup.write ks data, hdown⟩
  | (true, .read count) => exact ⟨hup.read ks count, hdown⟩
  | (false, .write data) => exact ⟨hup, hdown.write ks data⟩
  | (false, .read count) => exact ⟨hup, hdown.read ks count⟩

theorem run_synchronized (duplex : Duplex Seed) (events : List (Bool × LinkEvent))
    (hduplex : duplex.up.Synchronized ks ∧ duplex.down.Synchronized ks) :
    (duplex.run ks events).up.Synchronized ks ∧ (duplex.run ks events).down.Synchronized ks := by
  induction events generalizing duplex with
  | nil => exact hduplex
  | cons event rest ih => exact ih _ (duplex.step_synchronized ks event hduplex)

end Duplex

end Foundation.Keystream
