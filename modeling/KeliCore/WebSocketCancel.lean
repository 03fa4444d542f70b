/-
The asynchronous WebSocket stream of the relays.  `read_data` answers pings
itself, and a relay drops it at an await when the other branch of its `select!`
is ready or the time is up.
-/
import KeliCore.Run
import KeliCore.WebSocketFrames

namespace KeliCore

open Sample

open List

inductive WebSocketFrame where
  | data (bytes : List UInt8)
  | ping (data : PingData)
  | pong
  | close

/-- The payload of a control frame, with its bound. -/
def validateControlFrame (frame : RawWebSocketFrame) : Except IoError PingData :=
  if !frame.fin then .error ⟨.invalidData, "websocket control frame must not be fragmented"⟩
  else if hlong : 125 < frame.payload.length then
    .error ⟨.invalidData, "websocket control frame too large"⟩
  else .ok ⟨frame.payload, Nat.le_of_not_lt hlong⟩

/-- `WebSocketMessageAssembler::accept`; an accepted frame is always given. -/
def WebSocketFrame.accept (fragmented : Bool) (frame : RawWebSocketFrame) :
    Except IoError (Bool × WebSocketFrame) :=
  if frame.opcode = 1 ∨ frame.opcode = opcodeBinary then
    if fragmented then .error ⟨.invalidData,
      "websocket data frame started before previous fragmented message ended"⟩
    else .ok (!frame.fin, .data frame.payload)
  else if frame.opcode = 0 then
    if !fragmented then
      .error ⟨.invalidData, "websocket continuation frame without fragmented message"⟩
    else .ok (!frame.fin, .data frame.payload)
  else if frame.opcode = 9 then
    (validateControlFrame frame).map fun data => (fragmented, .ping data)
  else if frame.opcode = opcodePong then
    (validateControlFrame frame).map fun _ => (fragmented, .pong)
  else if frame.opcode = 8 then (validateControlFrame frame).map fun _ => (false, .close)
  else .error ⟨.invalidData, "unsupported websocket frame"⟩

def WebSocketFrame.bytes : WebSocketFrame → List UInt8
  | data bytes => bytes
  | _ => []

/-- The bytes a frame carries for the relay. -/
def RawWebSocketFrame.data (frame : RawWebSocketFrame) : List UInt8 :=
  if frame.opcode = 0 ∨ frame.opcode = 1 ∨ frame.opcode = opcodeBinary then frame.payload else []

/-- Frames taken off the front of a buffer, and what is left of it. -/
inductive Takes (masked : Bool) : List UInt8 → List RawWebSocketFrame → List UInt8 → Prop where
  | nil (buffer : List UInt8) : Takes masked buffer [] buffer
  | cons {buffer rest left : List UInt8} {frame : RawWebSocketFrame}
      {frames : List RawWebSocketFrame}
      (hframe : parseBufferedRawFrame masked buffer = .ok (some (frame, rest)))
      (hrest : Takes masked rest frames left) : Takes masked buffer (frame :: frames) left

variable {frame : RawWebSocketFrame}

section

variable {masked : Bool} {buffer left rest : List UInt8}

theorem frameLength_append {field len : Nat}
    (hlength : frameLength field buffer = some (len, rest)) (more : List UInt8) :
    frameLength field (buffer ++ more) = some (len, rest ++ more) := by
  rw [frameLength] at hlength ⊢
  split_ifs at hlength ⊢
  all_goals grind

theorem parse_append (hframe : parseBufferedRawFrame masked buffer = .ok (some (frame, rest)))
    (more : List UInt8) :
    parseBufferedRawFrame masked (buffer ++ more) = .ok (some (frame, rest ++ more)) := by
  match buffer, hframe with
  | first :: second :: buffer, hframe =>
    rw [parseBufferedRawFrame] at hframe
    dsimp only at hframe
    split at hframe
    · contradiction
    split at hframe
    · contradiction
    have hmasked : (second &&& 0x80 != 0) = masked := by cases masked <;> simp_all
    rw [hmasked] at hframe
    split at hframe
    · simp at hframe
    rename_i len body hlength
    split at hframe
    · contradiction
    rename_i hfits
    have henough : ¬ body.length < (if masked then 4 else 0) + len := by
      intro hshort
      rw [if_pos hshort] at hframe
      simp at hframe
    rw [if_neg henough] at hframe
    cases hframe
    rw [cons_append, cons_append, parse_complete hmasked (frameLength_append hlength more)
      (Nat.le_of_not_lt hfits) (by rw [length_append]; omega),
      drop_append_of_le_length (Nat.le_of_not_lt henough)]
    cases masked
    · have hlen : len ≤ body.length := by simpa using henough
      simp [take_append_of_le_length hlen]
    · have hlen : 4 + len ≤ body.length := by simpa using henough
      rw [drop_append_of_le_length (by omega), take_append_of_le_length (by omega),
        take_append_of_le_length (by rw [length_drop]; omega)]
      rfl

variable {frames : List RawWebSocketFrame}

theorem Takes.concat (htakes : Takes masked buffer frames left)
    (hframe : parseBufferedRawFrame masked left = .ok (some (frame, rest))) :
    Takes masked buffer (frames ++ [frame]) rest := by
  induction htakes with
  | nil buffer => exact .cons hframe (.nil rest)
  | cons hfirst _ ih => exact .cons hfirst (ih hframe)

theorem Takes.append (htakes : Takes masked buffer frames left) (more : List UInt8) :
    Takes masked (buffer ++ more) frames (left ++ more) := by
  induction htakes with
  | nil buffer => exact .nil _
  | cons hframe _ ih => exact .cons (parse_append hframe more) ih

end

theorem WebSocketFrame.bytes_of_accept {fragmented : Bool} {raw : RawWebSocketFrame}
    {frame : WebSocketFrame} {next : Bool} (haccept : accept fragmented raw = .ok (next, frame)) :
    frame.bytes = raw.data := by
  rw [accept] at haccept
  rw [RawWebSocketFrame.data]
  cases hvalid : validateControlFrame raw
  all_goals
    rw [hvalid] at haccept
    split_ifs at haccept
    all_goals cases haccept
    all_goals simp_all [bytes, opcodeBinary, opcodePong]

/-- Where `read_data` stands: outside a call, at the top of its loop, or at one
of its awaits. -/
inductive ReadPhase where
  | idle
  | loop
  | reading
  | answering (data : PingData) (written : Nat)
  | flushing
  | ended

/-- The stream, with what it has received, given to the relay and sent. -/
structure AsyncWebSocketStream where
  phase : ReadPhase := .idle
  input : List UInt8 := []
  buffer : List UInt8 := []
  fragmented : Bool := false
  received : List UInt8 := []
  delivered : List UInt8 := []
  wire : List UInt8 := []

/-- A chunk of the relay, or an encoded UDP packet. -/
structure BinaryPayload where
  bytes : List UInt8
  fits : bytes.length ≤ 128 * 1024

/-- What happens to the stream.  A turn has the room of the output; a read gives
nothing at the end of the stream and `none` with an error. -/
inductive StreamEvent where
  | call
  | turn (room : Nat)
  | read (result : Option (List UInt8))
  | wrote (count : Nat)
  | flushed
  | dropped
  | sends (payload : BinaryPayload)
  | shutdown

/-- `frame_bytes` -/
abbrev frameBytes (opcode : UInt8) (payload : List UInt8) : List UInt8 :=
  WebSocketEnd.server.encode ⟨true, opcode, payload⟩

namespace AsyncWebSocketStream

variable {stream : AsyncWebSocketStream}

/-- A turn of the loop, up to an await. -/
def turn (stream : AsyncWebSocketStream) (room : Nat) : AsyncWebSocketStream :=
  if !stream.buffer.isEmpty then
    { stream with
      phase := .idle
      delivered := stream.delivered ++ stream.buffer.take room
      buffer := stream.buffer.drop room }
  else
    match parseBufferedRawFrame true stream.input with
    | .error _ => { stream with phase := .ended }
    | .ok none => { stream with phase := .reading }
    | .ok (some (frame, rest)) =>
      match WebSocketFrame.accept stream.fragmented frame with
      | .error _ => { stream with phase := .ended, input := rest }
      | .ok (fragmented, frame) =>
        { stream with
          input := rest
          fragmented
          buffer := frame.bytes
          phase := match frame with
            | .ping data => .answering data 0
            | .close => .ended
            | _ => .loop }

/-- Write a frame outside `read_data`. -/
def put (stream : AsyncWebSocketStream) (bytes : List UInt8) : AsyncWebSocketStream :=
  match stream.phase with
  | .idle | .ended => { stream with wire := stream.wire ++ bytes }
  | _ => stream

def step (stream : AsyncWebSocketStream) (event : StreamEvent) : AsyncWebSocketStream :=
  match event, stream.phase with
  | .call, .idle => { stream with phase := .loop }
  | .turn room, .loop => stream.turn room
  | .read (some (first :: rest)), .reading =>
    { stream with
      phase := .loop
      input := stream.input ++ first :: rest
      received := stream.received ++ first :: rest }
  | .read _, .reading => { stream with phase := .ended }
  | .wrote count, .answering data written =>
    let bytes := frameBytes opcodePong data.bytes
    { stream with
      wire := stream.wire ++ (bytes.drop written).take count
      phase := if written + count < bytes.length then .answering data (written + count)
        else .flushing }
  | .flushed, .flushing => { stream with phase := .loop }
  | .dropped, .reading | .dropped, .answering .. | .dropped, .flushing =>
    { stream with phase := .idle }
  | .sends payload, _ => stream.put (frameBytes opcodeBinary payload.bytes)
  | .shutdown, _ => stream.put (frameBytes 8 [])
  | _, _ => stream

/-- The part of a pong that is on the wire while the rest is not. -/
def begun (stream : AsyncWebSocketStream) : List UInt8 :=
  match stream.phase with
  | .answering data written => (frameBytes opcodePong data.bytes).take written
  | _ => []

/-- The future is not dropped while a part of a pong is on the wire. -/
def Whole (stream : AsyncWebSocketStream) : StreamEvent → Prop
  | .dropped => stream.begun.isEmpty
  | _ => True

variable {event : StreamEvent} {room : Nat}

instance : Decidable (stream.Whole event) := by
  cases event <;> unfold Whole <;> infer_instance

/-- Every received byte is in the input or in a frame taken once, and the data
of the frames is delivered or in the buffer; a frame that is refused ends the
reading. -/
def ReadsAll (stream : AsyncWebSocketStream) : Prop :=
  ∃ frames refused, Takes true stream.received (frames ++ refused) stream.input ∧
    stream.delivered ++ stream.buffer = frames.flatMap RawWebSocketFrame.data ∧
    (refused = [] ∨ stream.phase = .ended)

/-- The wire carries complete frames, up to a pong that is being written. -/
def SendsFrames (stream : AsyncWebSocketStream) : Prop :=
  ∃ complete frames, Takes false complete frames [] ∧ stream.wire = complete ++ stream.begun

theorem ReadsAll.move (hreads : stream.ReadsAll) (hphase : stream.phase ≠ .ended)
    (phase : ReadPhase) (wire : List UInt8) : ReadsAll { stream with phase, wire } := by
  obtain ⟨frames, refused, htakes, hdata, hrefused⟩ := hreads
  exact ⟨frames, refused, htakes, hdata, .inl (hrefused.resolve_right hphase)⟩

theorem ReadsAll.turn (hreads : stream.ReadsAll) (hphase : stream.phase = .loop) :
    (stream.turn room).ReadsAll := by
  unfold AsyncWebSocketStream.turn
  obtain ⟨frames, refused, htakes, hdata, hrefused⟩ := hreads
  obtain rfl : refused = [] := by simpa [hphase] using hrefused
  split
  · exact ⟨frames, [], htakes, by simpa using hdata, .inl rfl⟩
  rename_i hfull
  have hempty : stream.buffer = [] := by simpa using hfull
  split
  · exact ⟨frames, [], htakes, hdata, .inl rfl⟩
  · exact ⟨frames, [], htakes, hdata, .inl rfl⟩
  rename_i frame rest hframe
  rw [append_nil] at htakes
  split
  · exact ⟨frames, [frame], htakes.concat hframe, hdata, .inr rfl⟩
  next haccept =>
    refine ⟨frames ++ [frame], [], by simpa using htakes.concat hframe, ?_, .inl rfl⟩
    rw [hempty, append_nil] at hdata
    simp [hdata, WebSocketFrame.bytes_of_accept haccept]

theorem ReadsAll.step (hreads : stream.ReadsAll) : (stream.step event).ReadsAll := by
  unfold AsyncWebSocketStream.step
  split
  case h_2 hphase => exact hreads.turn hphase
  case h_3 first rest hphase =>
    obtain ⟨frames, refused, htakes, hdata, hrefused⟩ := hreads
    obtain rfl : refused = [] := by simpa [hphase] using hrefused
    exact ⟨frames, [], htakes.append _, hdata, .inl rfl⟩
  case h_10 | h_11 =>
    unfold AsyncWebSocketStream.put
    split <;> exact hreads
  case h_12 => exact hreads
  all_goals
    rename_i hphase
    exact hreads.move (by simp [hphase]) _ _

theorem SendsFrames.keep (hsends : stream.SendsFrames) {next : AsyncWebSocketStream}
    (hwire : next.wire = stream.wire) (hbegun : next.begun = stream.begun) :
    next.SendsFrames := by rwa [SendsFrames, hwire, hbegun]

theorem SendsFrames.put {bytes : List UInt8} (hsends : stream.SendsFrames)
    (hframe : parseBufferedRawFrame false bytes = .ok (some (frame, []))) :
    (stream.put bytes).SendsFrames := by
  unfold AsyncWebSocketStream.put
  split
  case h_3 => exact hsends
  all_goals
    rename_i hphase
    obtain ⟨complete, frames, htakes, hwire⟩ := hsends
    refine ⟨complete ++ bytes, frames ++ [frame], (htakes.append bytes).concat hframe, ?_⟩
    simp_all [begun]

theorem turn_sends : (stream.turn room).wire = stream.wire ∧ (stream.turn room).begun = [] := by
  unfold turn begun
  repeat' split
  all_goals simp_all

theorem parse_frameBytes {opcode : UInt8} {payload : List UInt8}
    (hframe : RawWebSocketFrame.Sendable ⟨true, opcode, payload⟩) :
    parseBufferedRawFrame false (frameBytes opcode payload) =
      .ok (some (⟨true, opcode, payload⟩, [])) := by
  have hparse := parse_encode .server hframe []
  rwa [append_nil] at hparse

theorem SendsFrames.step (hsends : stream.SendsFrames) (hwhole : stream.Whole event) :
    (stream.step event).SendsFrames := by
  unfold AsyncWebSocketStream.step
  split
  case h_2 hphase => exact hsends.keep turn_sends.1 (by rw [turn_sends.2, begun, hphase])
  case h_5 count data written hphase =>
    obtain ⟨complete, frames, htakes, hwire⟩ := hsends
    rw [begun, hphase] at hwire
    dsimp only at hwire ⊢
    have hsum := take_add (l := frameBytes opcodePong data.bytes) (i := written) (j := count)
    split
    · exact ⟨complete, frames, htakes, by rw [begun, hwire, append_assoc, ← hsum]⟩
    next hlong =>
      rw [take_of_length_le (Nat.le_of_not_lt hlong)] at hsum
      refine ⟨complete ++ frameBytes opcodePong data.bytes, _, (htakes.append _).concat
        (parse_frameBytes ⟨rfl, .inr rfl, ?_⟩), by
          rw [begun, hwire, append_assoc, ← hsum, append_nil]⟩
      exact data.fits.trans (by decide)
  case h_7 | h_8 | h_9 => exact hsends.keep rfl (isEmpty_iff.1 hwhole).symm
  case h_10 payload =>
    exact hsends.put (parse_frameBytes ⟨rfl, .inl rfl, payload.fits.trans (by decide)⟩)
  case h_11 =>
    have hclose : parseBufferedRawFrame false (frameBytes 8 []) =
        .ok (some (⟨true, 8, []⟩, [])) := by decide +kernel
    exact hsends.put hclose
  case h_12 => exact hsends
  all_goals
    rename_i hphase
    refine hsends.keep rfl ?_
    rw [begun, begun, hphase]

/-- Wherever `read_data` is dropped, no received byte is lost or taken twice; if
it is never dropped in the middle of a pong, the wire carries complete frames. -/
theorem dropped_reads_keep_frames (events : List StreamEvent) : (Run.exec step {} events).ReadsAll ∧
      (Run.Meets step Whole {} events → (Run.exec step {} events).SendsFrames) :=
  ⟨Run.exec_always (fun _ _ => ReadsAll.step) ⟨[], [], .nil [], rfl, .inl rfl⟩ events,
    Run.exec_invariant (fun _ _ => SendsFrames.step) ⟨[], [], .nil [], rfl⟩⟩

/-- A ping whose pong is dropped after some bytes, and a byte for the client. -/
def pinged (written : Nat) : List StreamEvent :=
  [.call, .turn 9, .read (some [0x89, 0x80, 1, 2, 3, 4]), .turn 9, .wrote written, .dropped,
    .sends ⟨[7], by decide⟩]

theorem pong_written_before_drop :
    Run.Meets step Whole {} (pinged 2) ∧ (Run.exec step {} (pinged 2)).SendsFrames :=
  ⟨by decide +kernel, (dropped_reads_keep_frames _).2 (by decide +kernel)⟩

/-- The data frame starts inside the pong, and a client refuses it. -/
theorem frame_inside_pong : (Run.exec step {} (pinged 1)).wire = [0x8A, 0x82, 1, 7] ∧
      parseBufferedRawFrame false [0x8A, 0x82, 1, 7] = .error
        ⟨.invalidData, "server websocket frame must not be masked"⟩ := by decide +kernel

end AsyncWebSocketStream

end KeliCore
