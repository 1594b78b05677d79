import Mathlib.Data.List.Basic
import TgWsProxy.Foundation.Text
import TgWsProxy.Foundation.Transition

/-!
# Log lines on their way to the app

Every log record gets a writer of its own, which cuts it into lines; a line goes to logcat
and, through the JVM, to Kotlin. The JNI crate logs as well, so a record may begin while a
thread is inside a call, and the flag `IN_JNI_CALL` keeps its lines out of the JVM. Here
is one thread with its call stack: what it logs, and when a call returns or panics, is up to
the labels.
-/

namespace TgWsProxy.Android

open Foundation Foundation.Transition

/-! ## Lines -/

def newline : UInt8 := 10

def carriageReturn : UInt8 := 13

def chomp (line : List UInt8) : List UInt8 :=
  if line.getLast? = some carriageReturn then line.dropLast else line

/-- One turn of `drain_lines`: the first line, and what stays in the buffer. -/
def takeLine (buf : List UInt8) : Option (List UInt8 × List UInt8) :=
  (buf.findIdx? (· == newline)).map fun pos => (chomp (buf.take pos), buf.drop (pos + 1))

/-- The lines of a record that are not empty; the last one may lack its end. -/
def lines (content : List UInt8) : List (List UInt8) :=
  let pieces := content.splitOn newline
  (pieces.dropLast.map chomp ++ pieces.getLast?.toList).filter (!·.isEmpty)

theorem takeLine_eq_some {buf line rest : List UInt8} (htake : takeLine buf = some (line, rest)) :
    ∃ raw, buf = raw ++ newline :: rest ∧ newline ∉ raw ∧ line = chomp raw := by
  obtain ⟨pos, hpos, heq⟩ := Option.map_eq_some_iff.mp htake
  obtain ⟨hlt, hfound, hbefore⟩ := List.findIdx?_eq_some_iff_getElem.mp hpos
  cases heq
  refine ⟨buf.take pos, ?_, ?_, rfl⟩
  · rw [← eq_of_beq hfound, List.getElem_cons_drop, List.take_append_drop]
  · intro hmem
    obtain ⟨index, hindex, hget⟩ := List.mem_take_iff_getElem.mp hmem
    have hother := hbefore index (by omega)
    rw [hget, beq_self_eq_true] at hother
    exact hother rfl

theorem takeLine_eq_none {buf : List UInt8} (htake : takeLine buf = none) : newline ∉ buf := by
  intro hmem
  have hother := List.findIdx?_eq_none_iff.mp (Option.map_eq_none_iff.mp htake) newline hmem
  cases (beq_self_eq_true newline).symm.trans hother

theorem lines_of_takeLine {buf line rest : List UInt8} (htake : takeLine buf = some (line, rest))
    (later : List UInt8) :
    lines (buf ++ later) = [line].filter (!·.isEmpty) ++ lines (rest ++ later) := by
  obtain ⟨raw, rfl, hraw, rfl⟩ := takeLine_eq_some htake
  have hne : (rest ++ later).splitOn newline ≠ [] := List.splitOn_ne_nil _ _
  unfold lines
  rw [List.append_assoc, List.cons_append, List.splitOn_append_cons_self_of_not_mem hraw]
  dsimp only
  rw [List.dropLast_cons_of_ne_nil hne, List.getLast?_cons_of_ne_nil hne, List.map_cons,
    List.cons_append, ← List.filter_append]
  rfl

theorem lines_of_no_newline {content : List UInt8} (hcontent : newline ∉ content) :
    lines content = [content].filter (!·.isEmpty) := by
  unfold lines
  rw [List.splitOn_eq_singleton hcontent]
  rfl

/-! ## Model -/

/-- What the thread asks of the JVM outside of the writers. -/
inductive Request
  | error (line : Text)
  | listening (link : Text)
  | stopped
  /-- `attach_runtime_thread` and `detach_runtime_thread`. -/
  | attach
  | detach
  deriving DecidableEq, Repr

inductive JniCall
  | log (line : Text)
  | request (request : Request)
  deriving DecidableEq, Repr

inductive Frame
  /-- An `AndroidWriter`, with what is still to be written to it. -/
  | writing (buf : List UInt8) (pieces : List (List UInt8))
  /-- One that is dropped while a panic unwinds the stack. -/
  | dropping (buf : List UInt8)
  | calling (call : JniCall)
  deriving DecidableEq, Repr

def Frame.isDropping : Frame → Bool
  | .dropping _ => true
  | .writing _ _ | .calling _ => false

/-- The calls on a stack. -/
def depth : List Frame → Nat
  | [] => 0
  | .calling _ :: rest => depth rest + 1
  | .writing _ _ :: rest | .dropping _ :: rest => depth rest

def inCall (stack : List Frame) : Bool := depth stack != 0

structure Thread where
  /-- `IN_JNI_CALL`; absent once the thread-locals are gone. -/
  inJniCall : Option Bool
  stack : List Frame
  /-- What was written to logcat, and whether inside a call. -/
  logcat : List (Bool × Text)
  /-- The calls into the JVM. -/
  entered : List JniCall
  deriving DecidableEq, Repr

namespace Thread

/-- `JniReentryGuard::acquire`: a flag that is gone reads as taken. -/
def acquire (thread : Thread) : Option Thread :=
  match thread.inJniCall with
  | some false => some { thread with inJniCall := some true }
  | some true | none => none

/-- The drop of the guard. -/
def release (thread : Thread) : Thread :=
  { thread with inJniCall := thread.inJniCall.map fun _ => false }

/-- `ready` says whether `JVM` and `NATIVE_CLASS` are set. -/
def callStaticImpl (thread : Thread) (call : JniCall) (ready : Bool) : Thread :=
  match thread.acquire with
  | none => thread
  | some thread =>
      if ready then
        { thread with stack := .calling call :: thread.stack, entered := thread.entered ++ [call] }
      else thread.release

/-- A C string has no zero character inside. -/
def cText (line : Text) : Text := line.filter fun c => c.toNat != 0

def toLogcat (thread : Thread) (line : Text) : Thread :=
  { thread with logcat := thread.logcat ++ [(inCall thread.stack, cText line)] }

/-- A panic goes down the stack: the guard of a call is dropped, and so is a writer. -/
def unwind (thread : Thread) : List Frame → Thread
  | .calling _ :: rest => thread.release.unwind rest
  | .writing buf _ :: rest => { thread with stack := .dropping buf :: rest }
  | rest => { thread with stack := rest }

section Lossy

variable (lossy : List UInt8 → Text)

def forwardLine (thread : Thread) (line : List UInt8) (ready : Bool) : Thread :=
  (thread.toLogcat (lossy line)).callStaticImpl (.log (lossy line)) ready

/-- The next turn of the writer on top of the stack. -/
def turn (thread : Thread) (ready : Bool) : Option Thread :=
  match thread.stack with
  | .writing buf pieces :: rest =>
      match takeLine buf with
      | some (line, left) =>
          let thread := { thread with stack := .writing left pieces :: rest }
          some (if line.isEmpty then thread else thread.forwardLine lossy line ready)
      | none =>
          match pieces with
          | piece :: pieces => some { thread with stack := .writing (buf ++ piece) pieces :: rest }
          | [] =>
              if buf.isEmpty then some { thread with stack := rest }
              else
                let thread := { thread with stack := .writing [] [] :: rest }
                some (thread.forwardLine lossy buf ready)
  | .dropping buf :: rest =>
      if buf.isEmpty then some (thread.unwind rest)
      else
        let thread := { thread with stack := .dropping [] :: rest }
        some (thread.forwardLine lossy buf ready)
  | .calling _ :: _ | [] => none

end Lossy

/-- `emit_error` also writes to logcat. -/
def request (thread : Thread) (request : Request) (ready : Bool) : Thread :=
  match request with
  | .error line => (thread.toLogcat line).callStaticImpl (.request (.error line)) ready
  | other => thread.callStaticImpl (.request other) ready

end Thread

inductive LogLabel
  /-- A record begins, inside a call or not. -/
  | record (nested : Bool) (pieces : List (List UInt8))
  | turn (ready : Bool)
  | request (request : Request) (ready : Bool)
  /-- The call on top of the stack comes to its end. -/
  | returned
  | panicked
  /-- The thread-locals of a thread that ends. -/
  | destroyed
  deriving DecidableEq, Repr

def logStep (lossy : List UInt8 → Text) (thread : Thread) : LogLabel → Option Thread
  | .record nested pieces =>
      match thread.stack with
      | [] => if nested then none else some { thread with stack := [.writing [] pieces] }
      | .calling call :: rest =>
          if nested then some { thread with stack := .writing [] pieces :: .calling call :: rest }
          else none
      | _ => none
  | .turn ready => thread.turn lossy ready
  | .request request ready =>
      if thread.stack.isEmpty then some (thread.request request ready) else none
  | .returned =>
      match thread.stack with
      | .calling _ :: rest => some { thread.release with stack := rest }
      | _ => none
  | .panicked =>
      match thread.stack with
      -- A second panic while the stack is unwound aborts the process.
      | .calling call :: rest =>
          if rest.any Frame.isDropping then none else some (thread.unwind (.calling call :: rest))
      | _ => none
  | .destroyed => if thread.stack.isEmpty then some { thread with inJniCall := none } else none

/-- A thread that has just begun. -/
def logSystem (lossy : List UInt8 → Text) : System Thread LogLabel where
  start := { inJniCall := some false, stack := [], logcat := [], entered := [] }
  step := logStep lossy

/-! ## One call at a time -/

section Guard

variable {lossy : List UInt8 → Text} {thread next : Thread}

def held : Option Bool → Nat
  | some true => 1
  | some false | none => 0

/-- The flag is set exactly while a call is open, and then it is one call. -/
def Guarded (thread : Thread) : Prop := depth thread.stack = held thread.inJniCall

/-- A call that is made is on the stack, with the flag set; otherwise nothing changes. -/
theorem callStaticImpl_eq (thread : Thread) (call : JniCall) (ready : Bool) :
    thread.callStaticImpl call ready =
      if thread.inJniCall = some false ∧ ready = true then
        { thread with
          inJniCall := some true
          stack := .calling call :: thread.stack
          entered := thread.entered ++ [call] }
      else thread := by
  obtain ⟨flag, stack, logcat, entered⟩ := thread
  rcases flag with _ | _ | _
  · rfl
  · cases ready <;> rfl
  · rfl

theorem Guarded.callStaticImpl (hguarded : Guarded thread) (call : JniCall) (ready : Bool) :
    Guarded (thread.callStaticImpl call ready) := by
  rw [callStaticImpl_eq]
  split
  next hfree =>
    unfold Guarded at hguarded
    rw [hfree.1] at hguarded
    exact congrArg (· + 1) hguarded
  next => exact hguarded

theorem Guarded.forwardLine (hguarded : Guarded thread) (line : List UInt8) (ready : Bool) :
    Guarded (thread.forwardLine lossy line ready) :=
  @Guarded.callStaticImpl (thread.toLogcat (lossy line)) hguarded _ ready

theorem Guarded.request (hguarded : Guarded thread) (request : Request) (ready : Bool) :
    Guarded (thread.request request ready) := by
  cases request with
  | error line => exact @Guarded.callStaticImpl (thread.toLogcat line) hguarded _ ready
  | listening link | stopped | attach | detach => exact hguarded.callStaticImpl _ ready

theorem held_le_one (flag : Option Bool) : held flag ≤ 1 := by
  rcases flag with _ | _ | _ <;> decide

/-- Dropping the guard of the one open call. -/
theorem held_release {count : Nat} (hcount : count + 1 = held thread.inJniCall) :
    count = held thread.release.inJniCall := by
  have hle := held_le_one thread.inJniCall
  have hzero : held thread.release.inJniCall = 0 := by
    unfold Thread.release
    cases thread.inJniCall <;> rfl
  omega

theorem guarded_unwind {frames : List Frame} (hframes : depth frames = held thread.inJniCall) :
    Guarded (thread.unwind frames) := by
  induction frames generalizing thread with
  | nil => exact hframes
  | cons frame rest ih =>
      cases frame with
      | calling call => exact ih (held_release hframes)
      | writing buf pieces => exact hframes
      | dropping buf => exact hframes

theorem Guarded.turn (hguarded : Guarded thread) {ready : Bool}
    (hturn : thread.turn lossy ready = some next) : Guarded next := by
  unfold Thread.turn at hturn
  unfold Guarded at hguarded
  split at hturn
  next buf pieces rest hstack =>
    rw [hstack] at hguarded
    split at hturn
    next line left _ =>
      cases hturn
      have hleft : Guarded { thread with stack := .writing left pieces :: rest } := hguarded
      split
      · exact hleft
      · exact hleft.forwardLine line ready
    next =>
      cases pieces with
      | cons piece pieces =>
          cases hturn
          exact hguarded
      | nil =>
          have hflushed : Guarded { thread with stack := .writing [] [] :: rest } := hguarded
          dsimp only at hturn
          split at hturn <;> cases hturn
          · exact hguarded
          · exact hflushed.forwardLine buf ready
  next buf rest hstack =>
    rw [hstack] at hguarded
    have hflushed : Guarded { thread with stack := .dropping [] :: rest } := hguarded
    split at hturn <;> cases hturn
    · exact guarded_unwind hguarded
    · exact hflushed.forwardLine buf ready
  next => cases hturn
  next => cases hturn

theorem Guarded.step (hguarded : Guarded thread) {label : LogLabel}
    (hstep : logStep lossy thread label = some next) : Guarded next := by
  cases label with
  | record nested pieces =>
      simp only [logStep] at hstep
      unfold Guarded at hguarded
      split at hstep
      next hstack =>
        rw [hstack] at hguarded
        split at hstep <;> cases hstep
        exact hguarded
      next call rest hstack =>
        rw [hstack] at hguarded
        split at hstep <;> cases hstep
        exact hguarded
      next => cases hstep
  | turn ready => exact hguarded.turn hstep
  | request request ready =>
      simp only [logStep] at hstep
      split at hstep <;> cases hstep
      exact hguarded.request request ready
  | returned =>
      simp only [logStep] at hstep
      unfold Guarded at hguarded
      split at hstep <;> cases hstep
      next call rest hstack =>
        rw [hstack] at hguarded
        exact held_release hguarded
  | panicked =>
      simp only [logStep] at hstep
      unfold Guarded at hguarded
      split at hstep
      next call rest hstack =>
        rw [hstack] at hguarded
        split at hstep <;> cases hstep
        exact guarded_unwind hguarded
      next => cases hstep
  | destroyed =>
      simp only [logStep] at hstep
      split at hstep <;> cases hstep
      next hempty =>
        unfold Guarded
        rw [List.isEmpty_iff.mp hempty]
        rfl

theorem guarded_of_run {labels : List LogLabel}
    (hrun : (logSystem lossy).run labels = some thread) : Guarded thread := by
  refine System.runFrom_invariant _ ?_ ?_ hrun
  · intro state label next hstep hguarded
    exact hguarded.step hstep
  · exact rfl

end Guard

/-! ## Every line once -/

section Lines

variable {lossy : List UInt8 → Text} {thread next : Thread} {ready : Bool}

/-- The lines that the writers on the stack still have to forward, those that work inside a
call or the others. -/
def owed (nested : Bool) : List Frame → List (List UInt8)
  | [] => []
  | .writing buf pieces :: rest =>
      (if inCall rest = nested then lines (buf ++ pieces.flatten) else []) ++
        owed nested rest
  | .dropping _ :: rest | .calling _ :: rest => owed nested rest

theorem owed_nested {stack : List Frame} (hdepth : depth stack = 0) : owed true stack = [] := by
  induction stack with
  | nil => rfl
  | cons frame rest ih =>
      cases frame with
      | calling call => cases hdepth
      | dropping buf => exact ih hdepth
      | writing buf pieces =>
          have hdepth : depth rest = 0 := hdepth
          rw [owed, ih hdepth, inCall, hdepth]
          rfl

namespace LogLabel

variable (lossy)

/-- What a label adds to logcat, inside a call or not. -/
def logcatLines (nested : Bool) : LogLabel → List Text
  | .record side pieces =>
      if side = nested then (lines pieces.flatten).map fun line => Thread.cText (lossy line) else []
  | .request (.error line) _ => if nested then [] else [Thread.cText line]
  | _ => []

/-- What a label asks of the JVM. -/
def calls : LogLabel → List JniCall
  | .record false pieces => (lines pieces.flatten).map fun line => .log (lossy line)
  | .request asked _ => [.request asked]
  | _ => []

end LogLabel

def Thread.logged (thread : Thread) (nested : Bool) : List Text :=
  (thread.logcat.filter (·.1 == nested)).map (·.2)

theorem logged_toLogcat (thread : Thread) (line : Text) (nested : Bool) :
    (thread.toLogcat line).logged nested =
      thread.logged nested ++ if inCall thread.stack = nested then [Thread.cText line] else [] := by
  unfold Thread.logged Thread.toLogcat
  rw [List.filter_append, List.map_append]
  cases inCall thread.stack <;> cases nested <;> rfl

theorem logged_callStaticImpl (thread : Thread) (call : JniCall) (ready nested : Bool) :
    (thread.callStaticImpl call ready).logged nested = thread.logged nested := by
  rw [callStaticImpl_eq]
  split <;> rfl

theorem owed_callStaticImpl (thread : Thread) (call : JniCall) (ready nested : Bool) :
    owed nested (thread.callStaticImpl call ready).stack = owed nested thread.stack := by
  rw [callStaticImpl_eq]
  split <;> rfl

/-- No panic is on its way. -/
def upright (stack : List Frame) : Bool := stack.all (!·.isDropping)

/-- A turn of a writer: it moves on, and forwards at most one of the lines it owed. -/
theorem turn_writing {buf : List UInt8} {pieces : List (List UInt8)} {rest : List Frame}
    (hstack : thread.stack = .writing buf pieces :: rest)
    (hturn : thread.turn lossy ready = some next) :
    ∃ middle forwarded, depth middle = depth rest ∧
      upright middle = upright rest ∧
      (∀ nested, owed nested thread.stack =
        (if inCall rest = nested then forwarded else []) ++ owed nested middle) ∧
      (forwarded = [] ∧ next = { thread with stack := middle } ∨
        ∃ line, forwarded = [line] ∧
          next = Thread.forwardLine lossy { thread with stack := middle } line ready) := by
  unfold Thread.turn at hturn
  rw [hstack] at hturn ⊢
  dsimp only at hturn
  split at hturn
  next line left htake =>
    refine ⟨.writing left pieces :: rest, [line].filter (!·.isEmpty), rfl, rfl,
      fun nested => ?_, ?_⟩
    · rw [owed, owed, lines_of_takeLine htake]
      split <;> simp
    · cases hturn
      split
      next hempty => exact .inl ⟨by simp [hempty], rfl⟩
      next hline => exact .inr ⟨line, by simp [hline], rfl⟩
  next htake =>
    cases pieces with
    | cons piece pieces =>
        cases hturn
        refine ⟨.writing (buf ++ piece) pieces :: rest, [], rfl, rfl,
          fun nested => ?_, .inl ⟨rfl, rfl⟩⟩
        rw [owed, owed, List.flatten_cons, List.append_assoc, ite_self, List.nil_append]
    | nil =>
        have hlines := lines_of_no_newline (takeLine_eq_none htake)
        dsimp only at hturn
        split at hturn <;> cases hturn
        next hempty =>
          refine ⟨rest, [], rfl, rfl, fun nested => ?_, .inl ⟨rfl, rfl⟩⟩
          rw [owed, List.flatten_nil, List.append_nil, hlines]
          simp [hempty]
        next hbuf =>
          refine ⟨.writing [] [] :: rest, [buf], rfl, rfl, fun nested => ?_,
            .inr ⟨buf, rfl, rfl⟩⟩
          have hnone : lines ([] ++ []) = [] := rfl
          rw [owed, owed, List.flatten_nil, List.append_nil, hlines, hnone]
          simp [hbuf]

theorem upright_callStaticImpl (thread : Thread) (call : JniCall) (ready : Bool) :
    upright (thread.callStaticImpl call ready).stack = upright thread.stack := by
  rw [callStaticImpl_eq]
  split <;> rfl

/-- What a record owes when it begins comes behind everything else on its side. -/
theorem record_eq {nested : Bool} {pieces : List (List UInt8)} (hguarded : Guarded thread)
    (hstep : logStep lossy thread (.record nested pieces) = some next) :
    next = { thread with stack := .writing [] pieces :: thread.stack } ∧
      ∀ side, owed side next.stack =
        owed side thread.stack ++ if nested = side then lines pieces.flatten else [] := by
  simp only [logStep] at hstep
  unfold Guarded at hguarded
  split at hstep
  next hstack =>
    rw [hstack]
    split at hstep <;> cases hstep
    next hnested =>
      obtain rfl := Bool.eq_false_iff.mpr hnested
      refine ⟨rfl, fun side => ?_⟩
      cases side <;> simp [owed, inCall, depth]
  next call rest hstack =>
    rw [hstack] at hguarded ⊢
    split at hstep <;> cases hstep
    next hnested =>
      subst hnested
      have hone := held_le_one thread.inJniCall
      rw [← hguarded, depth] at hone
      have hnone : owed true rest = [] := owed_nested (by omega)
      refine ⟨rfl, fun side => ?_⟩
      cases side <;> simp [owed, inCall, depth, hnone]
  next => cases hstep

theorem returned_eq (hstep : logStep lossy thread .returned = some next) :
    ∃ call rest, thread.stack = .calling call :: rest ∧
      next = { thread.release with stack := rest } := by
  simp only [logStep] at hstep
  split at hstep <;> cases hstep
  next call rest hstack => exact ⟨call, rest, hstack, rfl⟩

theorem request_eq {request : Request}
    (hstep : logStep lossy thread (.request request ready) = some next) :
    thread.stack = [] ∧ next = thread.request request ready := by
  simp only [logStep] at hstep
  split at hstep <;> cases hstep
  next hempty => exact ⟨List.isEmpty_iff.mp hempty, rfl⟩

/-- With no panic on its way, a turn is one of a writer. -/
theorem writing_of_turn (hupright : upright thread.stack = true)
    (hturn : thread.turn lossy ready = some next) :
    ∃ buf pieces rest, thread.stack = .writing buf pieces :: rest := by
  unfold Thread.turn at hturn
  split at hturn
  next buf pieces rest hstack => exact ⟨buf, pieces, rest, hstack⟩
  next buf rest hstack =>
    rw [hstack] at hupright
    cases hupright
  next => cases hturn
  next => cases hturn

/-- Inside a call the flag is set, and outside it is not. -/
theorem Guarded.flag (hguarded : Guarded thread) (halive : thread.inJniCall ≠ none) :
    thread.inJniCall = some (inCall thread.stack) := by
  unfold Guarded at hguarded
  rw [inCall, hguarded]
  rcases hflag : thread.inJniCall with _ | _ | _
  · exact absurd hflag halive
  · rfl
  · rfl

theorem entered_callStaticImpl (hguarded : Guarded thread) (halive : thread.inJniCall ≠ none)
    (call : JniCall) :
    (thread.callStaticImpl call true).inJniCall ≠ none ∧
      (thread.callStaticImpl call true).entered =
        thread.entered ++ if inCall thread.stack = false then [call] else [] := by
  have hflag := hguarded.flag halive
  rw [callStaticImpl_eq]
  split
  next hfree =>
    rw [hfree.1] at hflag
    rw [← Option.some.inj hflag]
    exact ⟨Option.some_ne_none true, rfl⟩
  next htaken =>
    have hinside : inCall thread.stack ≠ false := by
      intro hfalse
      rw [hfalse] at hflag
      exact htaken ⟨hflag, rfl⟩
    rw [if_neg hinside, List.append_nil]
    exact ⟨halive, rfl⟩

/-- What a turn forwards is what the writer owed first, and goes where its side says. -/
theorem turn_forwards (hupright : upright thread.stack = true)
    (hturn : thread.turn lossy ready = some next) :
    ∃ forwarded nested, upright next.stack = true ∧
      (∀ side, owed side thread.stack =
        (if nested = side then forwarded else []) ++ owed side next.stack) ∧
      (∀ side, next.logged side = thread.logged side ++
        if nested = side then forwarded.map (fun line => Thread.cText (lossy line)) else []) ∧
      (Guarded thread → thread.inJniCall ≠ none → ready = true →
        next.inJniCall ≠ none ∧ next.entered = thread.entered ++
          if nested = false then forwarded.map (fun line => .log (lossy line)) else []) := by
  obtain ⟨buf, pieces, rest, hstack⟩ := writing_of_turn hupright hturn
  obtain ⟨middle, forwarded, hdepth, hmiddle, howed, hnext⟩ := turn_writing hstack hturn
  rw [hstack] at hupright
  have hcall : inCall middle = inCall rest := congrArg (· != 0) hdepth
  rcases hnext with ⟨rfl, rfl⟩ | ⟨line, rfl, rfl⟩
  · refine ⟨[], inCall rest, hmiddle.trans hupright, howed, fun side => by simp; rfl, ?_⟩
    intro _ halive _
    exact ⟨halive, by simp⟩
  · refine ⟨[line], inCall rest, ?_, ?_, ?_, ?_⟩
    · exact (upright_callStaticImpl _ _ _).trans (hmiddle.trans hupright)
    · intro side
      rw [howed side, Thread.forwardLine, owed_callStaticImpl]
      rfl
    · intro side
      rw [Thread.forwardLine, logged_callStaticImpl, logged_toLogcat, ← hcall]
      rfl
    · rintro hguarded halive rfl
      have hmoved : Guarded { thread with stack := middle } := by
        unfold Guarded at hguarded ⊢
        rw [hstack] at hguarded
        exact hdepth.trans hguarded
      rw [← hcall]
      exact @entered_callStaticImpl (Thread.toLogcat { thread with stack := middle } (lossy line))
        hmoved halive _

theorem request_calls (hstack : thread.stack = []) (request : Request) :
    ∃ logging : Thread, logging.stack = [] ∧ logging.inJniCall = thread.inJniCall ∧
      logging.entered = thread.entered ∧
      (∀ side, logging.logged side =
        thread.logged side ++ (LogLabel.request request ready).logcatLines lossy side) ∧
      thread.request request ready = logging.callStaticImpl (.request request) ready := by
  cases request with
  | error line =>
      refine ⟨thread.toLogcat line, hstack, rfl, rfl, fun side => ?_, rfl⟩
      rw [logged_toLogcat, hstack]
      cases side <;> rfl
  | listening link | stopped | attach | detach =>
      exact ⟨thread, hstack, rfl, rfl, fun side => (List.append_nil _).symm, rfl⟩

/-- Outside of the writers no request is kept from the JVM. -/
theorem request_entered (hguarded : Guarded thread) (hstack : thread.stack = [])
    (halive : thread.inJniCall ≠ none) (request : Request) :
    (thread.request request true).inJniCall ≠ none ∧
      (thread.request request true).entered = thread.entered ++ [.request request] := by
  obtain ⟨logging, hempty, hflag, hsame, -, heq⟩ :=
    @request_calls (fun _ => []) thread true hstack request
  have hlogging : Guarded logging := by
    unfold Guarded at hguarded ⊢
    rwa [hempty, hflag, ← hstack]
  obtain ⟨hnext, hentered⟩ := entered_callStaticImpl hlogging (hflag ▸ halive) (.request request)
  rw [heq]
  refine ⟨hnext, ?_⟩
  rw [hentered, hempty, hsame]
  rfl

/-- Nothing keeps the label from the JVM. -/
def LogLabel.served : LogLabel → Bool
  | .record _ _ | .turn true | .request _ true | .returned => true
  | .turn false | .request _ false | .panicked | .destroyed => false

variable (lossy) in
/-- After the labels, all their lines have been forwarded or are still owed. -/
structure Conserved (labels : List LogLabel) (thread : Thread) : Prop where
  upright : upright thread.stack = true
  logged : ∀ side, thread.logged side ++
      (owed side thread.stack).map (fun line => Thread.cText (lossy line)) =
    labels.flatMap (LogLabel.logcatLines lossy side)
  entered : (∀ label ∈ labels, label.served = true) → thread.inJniCall ≠ none ∧
    thread.entered ++ (owed false thread.stack).map (fun line => .log (lossy line)) =
      labels.flatMap (LogLabel.calls lossy)

namespace Conserved

variable {labels : List LogLabel} {label : LogLabel}

theorem turn (hconserved : Conserved lossy labels thread) (hguarded : Guarded thread)
    (hturn : thread.turn lossy ready = some next) :
    Conserved lossy (labels ++ [.turn ready]) next := by
  obtain ⟨forwarded, nested, hupright, howed, hlogged, hentered⟩ :=
    turn_forwards hconserved.upright hturn
  refine ⟨hupright, fun side => ?_, fun hserved => ?_⟩
  · rw [List.flatMap_append, ← hconserved.logged side, hlogged side, howed side]
    split <;> simp [LogLabel.logcatLines]
  · obtain ⟨hearlier, hready⟩ := List.forall_mem_append.mp hserved
    obtain ⟨halive, hcalls⟩ := hconserved.entered hearlier
    have hready : ready = true := by
      cases ready with
      | true => rfl
      | false => cases hready _ List.mem_cons_self
    obtain ⟨hnext, hforwarded⟩ := hentered hguarded halive hready
    refine ⟨hnext, ?_⟩
    rw [List.flatMap_append, ← hcalls, hforwarded, howed false]
    split <;> simp [LogLabel.calls]

theorem request {request : Request} (hconserved : Conserved lossy labels thread)
    (hguarded : Guarded thread) (hstack : thread.stack = []) :
    Conserved lossy (labels ++ [.request request ready]) (thread.request request ready) := by
  obtain ⟨logging, hempty, -, -, hlogged, heq⟩ := @request_calls lossy thread ready hstack request
  have hupright : Android.upright logging.stack = true := by
    rw [hempty]
    rfl
  have howed : ∀ side, owed side (thread.request request ready).stack = [] := by
    intro side
    rw [heq, owed_callStaticImpl, hempty]
    rfl
  refine ⟨?_, fun side => ?_, fun hserved => ?_⟩
  · rw [heq, upright_callStaticImpl, hupright]
  · rw [howed side, heq, logged_callStaticImpl, hlogged side, List.flatMap_append,
      ← hconserved.logged side, hstack]
    simp [owed]
  · obtain ⟨hearlier, hready⟩ := List.forall_mem_append.mp hserved
    obtain ⟨halive, hcalls⟩ := hconserved.entered hearlier
    obtain rfl : ready = true := by
      cases ready with
      | true => rfl
      | false => cases hready _ List.mem_cons_self
    obtain ⟨hnext, hentered⟩ := request_entered hguarded hstack halive request
    refine ⟨hnext, ?_⟩
    rw [howed false, hentered, List.flatMap_append, ← hcalls, hstack]
    simp [owed, LogLabel.calls]

theorem step (hconserved : Conserved lossy labels thread) (hguarded : Guarded thread)
    (hcalm : label ≠ .panicked) (hstep : logStep lossy thread label = some next) :
    Conserved lossy (labels ++ [label]) next := by
  cases label with
  | record nested pieces =>
      obtain ⟨rfl, howed⟩ := record_eq hguarded hstep
      refine ⟨hconserved.upright, fun side => ?_, fun hserved => ?_⟩
      · rw [howed side, List.flatMap_append, ← hconserved.logged side]
        split <;> simp [LogLabel.logcatLines, Thread.logged, *]
      · obtain ⟨hearlier, -⟩ := List.forall_mem_append.mp hserved
        obtain ⟨halive, hcalls⟩ := hconserved.entered hearlier
        refine ⟨halive, ?_⟩
        rw [howed false, List.flatMap_append, ← hcalls]
        cases nested <;> simp [LogLabel.calls]
  | turn ready => exact hconserved.turn hguarded hstep
  | request request ready =>
      obtain ⟨hstack, rfl⟩ := request_eq hstep
      exact hconserved.request hguarded hstack
  | returned =>
      obtain ⟨call, rest, hstack, rfl⟩ := returned_eq hstep
      obtain ⟨hupright, hlogged, hentered⟩ := hconserved
      rw [hstack] at hupright hlogged hentered
      refine ⟨hupright, fun side => ?_, fun hserved => ?_⟩
      · rw [List.flatMap_append, ← hlogged side]
        exact (List.append_nil _).symm
      · obtain ⟨hearlier, -⟩ := List.forall_mem_append.mp hserved
        obtain ⟨halive, hcalls⟩ := hentered hearlier
        refine ⟨?_, ?_⟩
        · rcases hflag : thread.inJniCall with _ | flag
          · exact absurd hflag halive
          · simp [Thread.release, hflag]
        · rw [List.flatMap_append, ← hcalls]
          exact (List.append_nil _).symm
  | panicked => exact absurd rfl hcalm
  | destroyed =>
      simp only [logStep] at hstep
      split at hstep <;> cases hstep
      refine ⟨hconserved.upright, fun side => ?_, fun hserved => ?_⟩
      · rw [List.flatMap_append, ← hconserved.logged side]
        exact (List.append_nil _).symm
      · cases hserved .destroyed (List.mem_append_right _ List.mem_cons_self)

theorem of_run (hrun : (logSystem lossy).run labels = some thread)
    (hcalm : .panicked ∉ labels) : Conserved lossy labels thread := by
  refine System.run_induct _ (Conserved lossy) ?_ ?_ hrun
  · exact ⟨rfl, fun side => rfl, fun _ => ⟨Option.some_ne_none false, rfl⟩⟩
  · rintro before state label next hbefore ⟨front, back, rfl, -⟩ hstep hconserved
    refine hconserved.step (guarded_of_run hbefore) ?_ hstep
    rintro rfl
    exact hcalm (List.mem_append_right _ List.mem_cons_self)

end Conserved

end Lines

/-! ## Results -/

/-- However a thread logs, and whatever the JNI crate logs while it is in a call, whichever
calls return and whichever panic: no call is made while another one is open, and the flag is
set exactly while one is. So a flag is never left behind: a request of the thread itself
reaches the JVM. -/
theorem jni_never_reentered (lossy : List UInt8 → Text) {labels : List LogLabel} {thread : Thread}
    (hrun : (logSystem lossy).run labels = some thread) :
    depth thread.stack ≤ 1 ∧
    (thread.inJniCall = some true ↔ 0 < depth thread.stack) ∧
    ∀ request next, logStep lossy thread (.request request true) = some next →
      thread.inJniCall ≠ none → next.entered = thread.entered ++ [.request request] := by
  have hguarded := guarded_of_run hrun
  refine ⟨?_, ?_, ?_⟩
  · exact hguarded.trans_le (held_le_one _)
  · unfold Guarded at hguarded
    rw [hguarded]
    rcases thread.inJniCall with _ | _ | _ <;> decide
  · intro request next hstep halive
    obtain ⟨hstack, rfl⟩ := request_eq hstep
    exact (request_entered hguarded hstack halive request).2

/-- A line whose call panics after the JNI crate has logged another one; the rest of the record
still comes out, in a call of its own. -/
theorem jni_never_reentered_panic :
    let lossy : List UInt8 → Text := List.map fun byte => Char.ofNat byte.toNat
    let labels : List LogLabel :=
      [.record false [[97, 10, 98], [10]], .turn true, .turn true, .record true [[99]],
        .turn true, .turn true, .turn true, .panicked, .turn true]
    ∃ thread, (logSystem lossy).run labels = some thread ∧ depth thread.stack ≤ 1 ∧
      thread.entered = [.log "a".toList, .log "b".toList] ∧
      thread.logged true = ["c".toList] := by
  intro lossy labels
  exact ⟨_, rfl, (@jni_never_reentered lossy labels _ rfl).1, rfl, rfl⟩

/-- A run without a panic in which all writers have finished: logcat has every line that is not
empty, of the records outside and of those inside a call, each once and in their order, and
however the records were written. As long as the JVM is there, Kotlin gets those outside, and
the requests of the thread, and nothing from inside a call. -/
theorem log_lines_forwarded (lossy : List UInt8 → Text) {labels : List LogLabel} {thread : Thread}
    (hrun : (logSystem lossy).run labels = some thread) (hcalm : .panicked ∉ labels)
    (hfinished : thread.stack = []) :
    (∀ nested, thread.logged nested = labels.flatMap (LogLabel.logcatLines lossy nested)) ∧
    ((∀ label ∈ labels, label.served = true) →
      thread.entered = labels.flatMap (LogLabel.calls lossy)) := by
  obtain ⟨-, hlogged, hentered⟩ := Conserved.of_run hrun hcalm
  rw [hfinished] at hlogged hentered
  refine ⟨fun nested => ?_, fun hserved => ?_⟩
  · rw [← hlogged nested]
    exact (List.append_nil _).symm
  · rw [← (hentered hserved).2]
    exact (List.append_nil _).symm

/-- A record in two pieces, and one that the JNI crate logs in the call for its first line. -/
theorem log_lines_forwarded_nested :
    let lossy : List UInt8 → Text := List.map fun byte => Char.ofNat byte.toNat
    let labels : List LogLabel :=
      [.record false [[97, 13], [10, 10, 98]], .turn true, .turn true, .turn true,
        .record true [[99]], .turn true, .turn true, .turn true, .returned, .turn true,
        .turn true, .returned, .turn true]
    ∃ thread, (logSystem lossy).run labels = some thread ∧
      thread.logged false = ["a".toList, "b".toList] ∧ thread.logged true = ["c".toList] ∧
      thread.entered = [.log "a".toList, .log "b".toList] := by
  intro lossy labels
  obtain ⟨hlogged, hentered⟩ := @log_lines_forwarded lossy labels _ rfl (by decide) rfl
  exact ⟨_, rfl, (hlogged false).trans rfl, (hlogged true).trans rfl,
    (hentered (by decide)).trans rfl⟩

end TgWsProxy.Android
