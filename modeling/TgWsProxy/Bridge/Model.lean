import TgWsProxy.Crypto.Handshake
import TgWsProxy.Splitter.Model

/-!
# The re-encrypting bridges

`bridge_ws` and `bridge_tcp` pump bytes between the client and Telegram, each
direction through its own pair of ciphers. What a socket will deliver and how
its writes will turn out are inputs of the model; what the peer accepted is the
output. A pump that has used up its reads is still waiting for the next one.
-/

namespace TgWsProxy.Bridge

open Foundation.Keystream Foundation.Machine TgWsProxy.Crypto TgWsProxy.Splitter

/-- How the client's byte stream is cut into WebSocket messages. -/
inductive WsFraming
  | packets
  | tunnel
  deriving DecidableEq, Repr

/-- The result of one read from a socket. -/
inductive ReadResult
  | ok (bytes : Bytes)
  | err

/-- What `ws_source.next()` yields. A close frame, a raw frame, an error and the
end of the stream are all handled alike. -/
inductive WsEvent
  | binary (data : Bytes)
  | text (data : Bytes)
  | ping (data : Bytes)
  | pong (data : Bytes)
  | ended

/-- The writing half of a connection: what the peer accepted so far, and the
results of the coming writes. A write beyond the listed results succeeds. -/
structure Sink where
  accepted : List Bytes
  results : List Bool
  closed : Bool

namespace Sink

def connect (results : List Bool) : Sink := ⟨[], results, false⟩

def send (sink : Sink) (message : Bytes) : Sink × Bool :=
  match sink.results with
  | [] => ({ sink with accepted := sink.accepted ++ [message] }, true)
  | true :: results => ({ sink with accepted := sink.accepted ++ [message], results }, true)
  | false :: results => ({ sink with results }, false)

/-- Send the parts in order and give up at the first failure. -/
def sendParts (sink : Sink) : List Bytes → Sink × Bool
  | [] => (sink, true)
  | part :: parts =>
      match sink.send part with
      | (sink, true) => sink.sendParts parts
      | (sink, false) => (sink, false)

/-- Send the parts in order whatever the results are. -/
def offerParts (sink : Sink) : List Bytes → Sink
  | [] => sink
  | part :: parts => (sink.send part).1.offerParts parts

def close (sink : Sink) : Sink := { sink with closed := true }

end Sink

/-! ## Pumps -/

/-- One direction of a bridge that re-encrypts without reframing: decrypt from
one side, encrypt for the other, write. -/
structure Pump where
  dec : AesCtr256
  enc : AesCtr256
  sink : Sink

namespace Pump

def forward (prim : Primitives) (pump : Pump) (chunk : Bytes) : Pump × Bool :=
  let (plaintext, dec) := pump.dec.applyKeystream prim.ks chunk
  let (ciphertext, enc) := pump.enc.applyKeystream prim.ks plaintext
  let (sink, sent) := pump.sink.send ciphertext
  ({ dec, enc, sink }, sent)

/-- The loop over socket reads, both ways of `bridge_tcp`. -/
def reads (prim : Primitives) (pump : Pump) : List ReadResult → Pump
  | [] => pump
  | .err :: _ => pump
  | .ok chunk :: rest =>
      if chunk = [] then pump
      else
        match pump.forward prim chunk with
        | (pump, true) => pump.reads prim rest
        | (pump, false) => pump

/-- The loop over WebSocket messages, the download half of `bridge_ws`. -/
def events (prim : Primitives) (pump : Pump) : List WsEvent → Pump
  | [] => pump
  | .ended :: _ => pump
  | .ping _ :: rest | .pong _ :: rest => pump.events prim rest
  | .binary data :: rest | .text data :: rest =>
      match pump.forward prim data with
      | (pump, true) => pump.events prim rest
      | (pump, false) => pump

end Pump

/-! ## WebSocket bridge -/

/-- The variables of the upload task of `bridge_ws`. -/
structure WsUpload where
  cltDec : AesCtr256
  tgEnc : AesCtr256
  splitter : Option MsgSplitter
  sink : Sink

/-- Why the upload loop stopped. -/
inductive UploadExit
  | clientClosed
  | sendFailed
  | waiting
  deriving DecidableEq, Repr

namespace WsUpload

/-- One turn of the upload loop on a read of at least one byte. -/
def forward (prim : Primitives) (width : PointerWidth) (upload : WsUpload) (chunk : Bytes) :
    Except Fault (WsUpload × Bool) := do
  let (plaintext, cltDec) := upload.cltDec.applyKeystream prim.ks chunk
  match upload.splitter with
  | some splitter =>
      let (parts, splitter, tgEnc) ← splitter.splitAndEncrypt prim width plaintext upload.tgEnc
      let (sink, sent) := upload.sink.sendParts parts
      return ({ cltDec, tgEnc, splitter := some splitter, sink }, sent)
  | none =>
      let (ciphertext, tgEnc) := upload.tgEnc.applyKeystream prim.ks plaintext
      let (sink, sent) := upload.sink.send ciphertext
      return ({ cltDec, tgEnc, splitter := none, sink }, sent)

def loop (prim : Primitives) (width : PointerWidth) (upload : WsUpload) :
    List ReadResult → Except Fault (WsUpload × UploadExit)
  | [] => .ok (upload, .waiting)
  | .err :: _ => .ok (upload, .clientClosed)
  | .ok chunk :: reads => do
      if chunk = [] then return (upload, .clientClosed)
      let (upload, sent) ← upload.forward prim width chunk
      if sent then upload.loop prim width reads else return (upload, .sendFailed)

/-- Flush the unfinished packet and close the sink. -/
def finish (upload : WsUpload) : WsUpload :=
  match upload.splitter with
  | some splitter =>
      let (parts, splitter) := splitter.flush
      { upload with splitter := some splitter, sink := (upload.sink.offerParts parts).close }
  | none => { upload with sink := upload.sink.close }

end WsUpload

/-- The upload half of `bridge_ws`: all messages the peer accepted. -/
def bridgeWsUpload (prim : Primitives) (width : PointerWidth) (framing : WsFraming)
    (relayInit : Block 64) (ciphers : ConnectionCiphers) (proto : ProtoTag)
    (reads : List ReadResult) (results : List Bool) : Except Fault Sink := do
  let splitter := if framing = .packets then some (MsgSplitter.new proto) else none
  match (Sink.connect results).send relayInit.toList with
  | (sink, false) => return sink
  | (sink, true) =>
      let start : WsUpload := { cltDec := ciphers.cltDec, tgEnc := ciphers.tgEnc, splitter, sink }
      let (upload, exit) ← start.loop prim width reads
      if exit = .clientClosed then return upload.finish.sink else return upload.sink

/-- The download half of `bridge_ws`: everything written to the client. -/
def bridgeWsDownload (prim : Primitives) (ciphers : ConnectionCiphers) (events : List WsEvent)
    (results : List Bool) : Sink :=
  (Pump.events prim ⟨ciphers.tgDec, ciphers.cltEnc, Sink.connect results⟩ events).sink

/-! ## TCP bridge -/

/-- The upload half of `bridge_tcp`, once the connection is up. -/
def bridgeTcpUpload (prim : Primitives) (relayInit : Block 64) (ciphers : ConnectionCiphers)
    (reads : List ReadResult) (results : List Bool) : Sink :=
  match (Sink.connect results).send relayInit.toList with
  | (sink, false) => sink
  | (sink, true) => (Pump.reads prim ⟨ciphers.cltDec, ciphers.tgEnc, sink⟩ reads).sink

/-- The download half of `bridge_tcp`. -/
def bridgeTcpDownload (prim : Primitives) (ciphers : ConnectionCiphers) (reads : List ReadResult)
    (results : List Bool) : Sink :=
  (Pump.reads prim ⟨ciphers.tgDec, ciphers.cltEnc, Sink.connect results⟩ reads).sink

end TgWsProxy.Bridge
