import TgWsProxy.Foundation.Transducer
import TgWsProxy.Foundation.Transition

/-!
# The end of a bridged session

A bridge uploads in a task of its own and downloads in the task of the client.
`join_bridge` waits for whichever direction ends first; when the download does, it aborts
the upload and waits until the task is gone. The number of uploaded bytes is kept in the
task and handed over when the task is dropped, so that it can be read afterwards.

A step of the system is what happens from one await to the next. The upload may take
further steps between its abort and the await at which it is cancelled.
-/

namespace TgWsProxy.Session

open Foundation Foundation.Transition

/-- Which side ended a bridged session, as it is logged. -/
inductive ClosedBy
  | client
  | upstream
  deriving DecidableEq, Repr

/-- Where the upload task waits. -/
inductive Phase (Output : Type)
  /-- For the relay init to be sent, where the task sends it. -/
  | opening (pending : List Output)
  | reading
  /-- For what a read of `read` bytes was turned into. -/
  | sending (read : Nat) (pending : List Output)
  /-- For the last packet, and for the connection to be closed. -/
  | flushing (pending : List Output)
  | ended
  deriving DecidableEq

/-- Where the task of the client is. -/
inductive Main
  | joining
  /-- The upload is aborted and awaited. -/
  | aborting
  /-- The session is over, with the values that are logged. -/
  | closed (closedBy : ClosedBy) (bytesUp bytesDown : Nat)
  deriving DecidableEq, Repr

structure State (Loop Output : Type) where
  /-- The ciphers and the splitter of the upload loop. -/
  loop : Loop
  phase : Phase Output
  /-- What the peer was handed. -/
  accepted : List Output
  /-- The counter in the upload task, and the value it leaves behind. -/
  counter : Nat
  shared : Nat
  downloading : Bool
  bytesDown : Nat
  main : Main

inductive Label
  | sent
  | sendFailed
  | chunk (bytes : List UInt8)
  /-- The end of the client's stream, or an error on it. -/
  | eof
  | finished
  | cancelled
  | downloaded (bytes : Nat)
  | downloadEnded
  /-- The branches of the `select!`, and the end of the wait for the aborted upload. -/
  | joinUpload
  | joinDownload
  | joinAborted
  deriving DecidableEq, Repr

section System

variable {Loop Output : Type} (machine : Transducer Loop (List UInt8) Output)

namespace State

/-- The task is dropped, and with it the counter. -/
def stop (state : State Loop Output) : State Loop Output :=
  { state with phase := .ended, shared := state.counter }

/-- Everything of the relay init is sent, or the rest is waited for. -/
def opened (state : State Loop Output) (pending : List Output) : State Loop Output :=
  match pending with
  | [] => { state with phase := .reading }
  | _ :: _ => { state with phase := .opening pending }

/-- A read is counted once everything of it is sent. -/
def sendAll (state : State Loop Output) (read : Nat) (pending : List Output) :
    State Loop Output :=
  match pending with
  | [] => { state with phase := .reading, counter := state.counter + read }
  | _ :: _ => { state with phase := .sending read pending }

def onSent (state : State Loop Output) : Option (State Loop Output) :=
  match state.phase with
  | .opening (output :: pending) =>
      some (opened { state with accepted := state.accepted ++ [output] } pending)
  | .sending read (output :: pending) =>
      some (sendAll { state with accepted := state.accepted ++ [output] } read pending)
  | .flushing (output :: pending) =>
      some { state with accepted := state.accepted ++ [output], phase := .flushing pending }
  | _ => none

/-- A failure ends the loop; while flushing it is ignored. -/
def onSendFailed (state : State Loop Output) : Option (State Loop Output) :=
  match state.phase with
  | .opening (_ :: _) | .sending _ (_ :: _) => some state.stop
  | .flushing (_ :: pending) => some { state with phase := .flushing pending }
  | _ => none

/-- A read of some bytes. A loop that breaks down takes its task with it. -/
def onChunk (state : State Loop Output) (bytes : List UInt8) : Option (State Loop Output) :=
  match state.phase, bytes with
  | .reading, _ :: _ =>
      match machine.step state.loop bytes with
      | none => some state.stop
      | some (loop, output) => some (sendAll { state with loop } bytes.length output)
  | _, _ => none

def onEof (state : State Loop Output) : Option (State Loop Output) :=
  match state.phase with
  | .reading => some { state with phase := .flushing (machine.finish state.loop) }
  | _ => none

def onFinished (state : State Loop Output) : Option (State Loop Output) :=
  match state.phase with
  | .flushing [] => some state.stop
  | _ => none

/-- An abort takes effect wherever the task waits. -/
def onCancelled (state : State Loop Output) : Option (State Loop Output) :=
  match state.main, state.phase with
  | .aborting, .opening _ | .aborting, .reading | .aborting, .sending _ _
  | .aborting, .flushing _ => some state.stop
  | _, _ => none

/-- The download is polled while the `select!` waits. -/
def onDownload (state : State Loop Output) (next : State Loop Output) :
    Option (State Loop Output) :=
  match state.main, state.downloading with
  | .joining, true => some next
  | _, _ => none

def onJoinUpload (state : State Loop Output) : Option (State Loop Output) :=
  match state.main, state.phase with
  | .joining, .ended => some { state with main := .closed .client state.shared state.bytesDown }
  | _, _ => none

def onJoinDownload (state : State Loop Output) : Option (State Loop Output) :=
  match state.main, state.downloading with
  | .joining, false => some { state with main := .aborting }
  | _, _ => none

def onJoinAborted (state : State Loop Output) : Option (State Loop Output) :=
  match state.main, state.phase with
  | .aborting, .ended => some { state with main := .closed .upstream state.shared state.bytesDown }
  | _, _ => none

end State

def step (state : State Loop Output) : Label → Option (State Loop Output)
  | .sent => state.onSent
  | .sendFailed => state.onSendFailed
  | .chunk bytes => state.onChunk machine bytes
  | .eof => state.onEof machine
  | .finished => state.onFinished
  | .cancelled => state.onCancelled
  | .downloaded bytes => state.onDownload { state with bytesDown := state.bytesDown + bytes }
  | .downloadEnded => state.onDownload { state with downloading := false }
  | .joinUpload => state.onJoinUpload
  | .joinDownload => state.onJoinDownload
  | .joinAborted => state.onJoinAborted

/-- The session from the moment the upload task is spawned. What was sent before, and what
the task sends before it reads, is given. -/
def sessionSystem (loop : Loop) (before opening : List Output) :
    System (State Loop Output) Label where
  start :=
    State.opened
      { loop, phase := .reading, accepted := before, counter := 0, shared := 0
        downloading := true, bytesDown := 0, main := .joining }
      opening
  step := step machine

end System

/-- The reads of the upload in a run. -/
def chunks (labels : List Label) : List (List UInt8) :=
  labels.filterMap fun
    | .chunk bytes => some bytes
    | _ => none

/-- The bytes that the download counted in a run. -/
def downloaded : List Label → Nat
  | [] => 0
  | .downloaded bytes :: labels => bytes + downloaded labels
  | _ :: labels => downloaded labels

end TgWsProxy.Session
