/-
The VLESS Vision relay.  It unpacks the client's frames and packs the remote's
bytes, counts both in its own totals, and, once both ends copy directly, hands
the two sockets to a plain relay that records as it goes.
-/
import KeliCore.Relaying
import KeliCore.Traffic
import KeliCore.Vision

namespace KeliCore

open Relaying

def asyncTrafficFlushBytes : Nat := 4 * 1024 * 1024

/-- The callback of `traffic_flush_callback`, and what it has recorded. -/
structure TrafficFlush where
  pending : Nat := 0
  flushedOnce : Bool := false
  recorded : Nat := 0

/-- A call of the callback; no bytes ask for a flush. -/
def TrafficFlush.add (bytes : Nat) (flush : TrafficFlush) : TrafficFlush :=
  let pending := addUpTo u64Max flush.pending bytes
  if pending = 0 then { flush with pending }
  else if flush.flushedOnce && bytes != 0 && pending < asyncTrafficFlushBytes
    then { flush with pending }
  else
    { pending := 0, flushedOnce := true
      recorded := flush.recorded + pending }

/-- What a read of a socket returns; no bytes are its end. -/
inductive SocketRead where
  | got (bytes : List UInt8)
  | failed (error : IoError)

def IoError.isStreamClosed (error : IoError) : Bool :=
  match error.kind with
  | .unexpectedEof | .connectionAborted | .connectionReset | .brokenPipe => true
  | _ => false

def visionBuffer : Nat := 16 * 1024

def vlessAsyncRelayBufferSize : Nat := 8 * 1024

namespace VisionDecoder

def readDecoded (decoder : VisionDecoder) (room : Nat) :
    VisionDecoder × Except IoError (List UInt8) :=
  match decoder.processBuffer with
  | (decoder, .error error) => (decoder, .error error)
  | (decoder, .ok ()) =>
    ({ decoder with output := decoder.output.drop room }, .ok (decoder.output.take room))

def isDrained (decoder : VisionDecoder) : Bool :=
  decoder.input.isEmpty && decoder.output.isEmpty

end VisionDecoder

inductive VisionPhase where
  | padding
  | head
  | select
  | raw
  | ended (result : End Direction)

structure VisionRelay where
  decoder : VisionDecoder
  encoder : VisionEncoder
  phase : VisionPhase := .padding
  uploadDone : Bool := false
  downloadDone : Bool := false
  uplinkDirect : Bool := false
  downlinkDirect : Bool := false
  clientEof : Bool := false
  totals : Direction → Nat := fun _ => 0
  trace : List (RelayEvent Direction) := []
  flush : Direction → TrafficFlush := fun _ => {}
  /-- Of the plain relay: the directions that are over, and its events. -/
  rawDone : Direction → Bool := fun _ => false
  rawTrace : List (RelayEvent Direction) := []

/-- What the relay meets at each of its places. -/
inductive VisionInput where
  | padded (written : Bool)
  | head (revoked granted written rawReady drained : Bool)
  | client (read : SocketRead) (granted written : Bool)
  | remote (read : SocketRead) (granted written : Bool) (draw : PaddingDraw)
  | drained
  | raw (direction : Direction) (read : Read) (granted written : Bool)
  | rawRevoked
  | rawHalfClosed

namespace VisionRelay

def emit (state : VisionRelay) (events : List (RelayEvent Direction)) :
    VisionRelay :=
  { state with trace := state.trace ++ events }

def endBoth (state : VisionRelay) : VisionRelay :=
  { state with uploadDone := true, downloadDone := true }

/-- The totals are handed to the callbacks, which flush. -/
def report (state : VisionRelay) : VisionRelay :=
  { state with
    flush := fun direction => ((state.flush direction).add (state.totals direction)).add 0 }

/-- After the loop. -/
def finish (state : VisionRelay) : VisionRelay :=
  let state := state.report
  { state with
    phase := .ended (.recorded fun direction => (state.flush direction).recorded) }

/-- The condition of the loop. -/
def again (state : VisionRelay) : VisionRelay :=
  if state.uploadDone && state.downloadDone then state.finish
  else { state with phase := .head }

/-- An error leaves the relay before it has recorded anything. -/
def lose (state : VisionRelay) : VisionRelay :=
  { state with phase := .ended .lost }

def count (direction : Direction) (bytes : Nat) (state : VisionRelay) :
    VisionRelay :=
  { state with
    totals := Function.update state.totals direction
      (addUpTo u64Max (state.totals direction) bytes) }

/-- A chunk is charged, if there is a limiter, handed to the writer and
counted. -/
def relayChunk (held : Bool) (direction : Direction) (bytes : Nat)
    (granted written : Bool) (state : VisionRelay) : VisionRelay :=
  if held && !granted then
    (state.emit [.waited direction bytes false]).endBoth.again
  else if written then
    ((state.emit (chunkEvents held direction bytes .all)).count direction bytes).again
  else (state.emit (chunkEvents held direction bytes .failed)).lose

/-- The end of the loop's head: the plain relay takes over, the wait after the
client's end is over, or the relay waits for an event. -/
def settle (rawReady drained : Bool) (state : VisionRelay) : VisionRelay :=
  if state.uplinkDirect && state.downlinkDirect && state.decoder.isDrained &&
      rawReady then { state.report with phase := .raw }
  else if state.clientEof && drained then state.finish
  else { state with phase := .select }

/-- The decoder's turn. -/
def decodeStep (held granted written rawReady drained : Bool) (state : VisionRelay) : VisionRelay :=
  if state.uploadDone || state.uplinkDirect then state.settle rawReady drained
  else
    match state.decoder.readDecoded visionBuffer with
    | (_, .error _) => state.lose
    | (decoder, .ok []) =>
      let state := { state with decoder }
      if decoder.isDirectCopy then { state with uplinkDirect := true }.again
      else state.settle rawReady drained
    | (decoder, .ok (first :: rest)) =>
      let state :=
        { state with decoder, uplinkDirect := decoder.isDirectCopy }
      state.relayChunk held .upload (first :: rest).length granted written

def headStep (held revoked granted written rawReady drained : Bool)
    (state : VisionRelay) : VisionRelay :=
  if held && revoked then (state.emit [.checked true]).finish
  else
    (state.emit (if held then [.checked false] else [])).decodeStep held
      granted written rawReady drained

def clientStep (held : Bool) (read : SocketRead) (granted written : Bool)
    (state : VisionRelay) : VisionRelay :=
  match read with
  | .got [] =>
    let decoder :=
      if state.uplinkDirect then state.decoder else state.decoder.finish
    { state with decoder, uploadDone := true, clientEof := true }.again
  | .got (first :: rest) =>
    let bytes := (first :: rest).take visionBuffer
    if state.uplinkDirect then
      state.relayChunk held .upload bytes.length granted written
    else
      let decoder := state.decoder.push bytes
      { state with decoder, uplinkDirect := decoder.isDirectCopy }.again
  | .failed error =>
    if error.isStreamClosed then
      { state with uploadDone := true, clientEof := true }.again
    else state.lose

def remoteStep (held : Bool) (read : SocketRead) (granted written : Bool)
    (draw : PaddingDraw) (state : VisionRelay) : VisionRelay :=
  match read with
  | .got [] => state.endBoth.again
  | .got (first :: rest) =>
    let bytes := (first :: rest).take visionBuffer
    let encoder := if state.downlinkDirect then state.encoder
      else (state.encoder.encode bytes draw).1
    let downlinkDirect := state.downlinkDirect || encoder.directCopy
    { state with encoder, downlinkDirect }.relayChunk held .download bytes.length granted written
  | .failed error => if error.isStreamClosed then state.endBoth.again else state.lose

/-- Whatever ends the plain relay, it flushes both callbacks. -/
def rawFinish (state : VisionRelay) : VisionRelay :=
  { state with
    flush := fun direction => (state.flush direction).add 0
    phase := .ended (.recorded fun direction => ((state.flush direction).add 0).recorded) }

def rawEmit (state : VisionRelay) (events : List (RelayEvent Direction)) :
    VisionRelay :=
  { state with rawTrace := state.rawTrace ++ events }

def rawAdd (direction : Direction) (bytes : Nat) (state : VisionRelay) :
    VisionRelay :=
  { state with
    flush := Function.update state.flush direction
      ((state.flush direction).add bytes) }

def rawAgain (state : VisionRelay) : VisionRelay :=
  if state.rawDone .upload && state.rawDone .download then state.rawFinish
  else state

/-- `relay_tcp_streams_async_with_label` -/
def rawStep (held : Bool) (direction : Direction) (read : Read)
    (granted written : Bool) (state : VisionRelay) : VisionRelay :=
  match read with
  | .got 0 =>
    { state.rawAdd direction 0 with
      rawDone := Function.update state.rawDone direction true }.rawAgain
  | .got (more + 1) =>
    let bytes := min (more + 1) vlessAsyncRelayBufferSize
    if held && !granted then
      (state.rawEmit [.waited direction bytes false]).rawFinish
    else if written then
      (state.rawEmit (chunkEvents held direction bytes .all)).rawAdd direction bytes
    else (state.rawEmit (chunkEvents held direction bytes .failed)).rawFinish
  | .blocked => state
  | .failed => state.rawFinish

end VisionRelay

section Vision

variable (held : Bool)

open VisionRelay

/-- One step of `relay_tls_vision_stream_async`.  `held` says whether there is
a limiter; an event the relay does not wait for changes nothing. -/
def visionStep (state : VisionRelay) (input : VisionInput) : VisionRelay :=
  match state.phase, input with
  | .padding, .padded written => if written then { state with phase := .head } else state.lose
  | .head, .head revoked granted written rawReady drained =>
    state.headStep held revoked granted written rawReady drained
  | .select, .client read granted written =>
    if state.uploadDone then state
    else state.clientStep held read granted written
  | .select, .remote read granted written draw =>
    if state.downloadDone then state
    else state.remoteStep held read granted written draw
  | .select, .drained => if state.clientEof then state.finish else state
  | .raw, .raw direction read granted written =>
    if state.rawDone direction then state
    else state.rawStep held direction read granted written
  | .raw, .rawRevoked => if held then (state.rawEmit [.checked true]).rawFinish else state
  | .raw, .rawHalfClosed =>
    if state.rawDone .upload != state.rawDone .download then state.rawFinish
    else state
  | _, _ => state

/-- The first frame is sent by the caller's wish. -/
def visionStart (userId : VisionUserId) (writeInitialPadding : Bool)
    (draw : PaddingDraw) : VisionRelay :=
  let encoder := VisionEncoder.new userId
  if writeInitialPadding then
    { decoder := .new userId, encoder := (encoder.emptyLongPaddingFrame draw).1 }
  else { decoder := .new userId, encoder, phase := .head }

def visionRun (userId : VisionUserId) (writeInitialPadding : Bool)
    (draw : PaddingDraw) (inputs : List VisionInput) : VisionRelay :=
  Run.exec (visionStep held) (visionStart userId writeInitialPadding draw) inputs

end Vision

end KeliCore
