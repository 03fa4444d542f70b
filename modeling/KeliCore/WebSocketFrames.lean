/-
WebSocket frames on a socket that does not block.  Both ends of the relays
write a frame with `write_all`, which can stop in the middle of it; the loops
above then start with the same payload again.
-/
import KeliCore.Sockets

namespace KeliCore

open Writing List

def opcodeBinary : UInt8 := 0x2
def opcodePong : UInt8 := 0xA

def maxHttpHeader : Nat := 16 * 1024

structure RawWebSocketFrame where
  fin : Bool
  opcode : UInt8
  payload : List UInt8
deriving DecidableEq

/-- The first bytes of a frame, with the bit that says whether a mask
follows. -/
def frameHeader (maskBit opcode : UInt8) (payloadLen : Nat) : List UInt8 :=
  (0x80 ||| opcode) :: if payloadLen < 126 then [maskBit ||| .ofNat payloadLen]
    else if payloadLen ≤ 65535 then
      (maskBit ||| 126) :: beOctets 2 payloadLen
    else (maskBit ||| 127) :: beOctets 8 payloadLen

def serverFrameHeader (opcode : UInt8) (payloadLen : Nat) : List UInt8 :=
  frameHeader 0 opcode payloadLen

def applyMask (mask payload : List UInt8) : List UInt8 :=
  payload.mapIdx fun index byte => byte ^^^ mask.getD (index % 4) 0

def clientMask : List UInt8 := [1, 2, 3, 4]

def clientFrameBytes (opcode : UInt8) (payload : List UInt8) : List UInt8 :=
  frameHeader 0x80 opcode payload.length ++ clientMask ++ applyMask clientMask payload

/-- The two ends that write frames: the server of a plain WebSocket inbound,
and the client of an outbound bridge. -/
inductive WebSocketEnd where
  | server
  | client

namespace WebSocketEnd

/-- What `write_frame` and `Write for WebSocketClientStream` give to
`write_all`, call by call. -/
def frameParts (self : WebSocketEnd) (opcode : UInt8) (payload : List UInt8) : List (List UInt8) :=
  match self with
  | server => [serverFrameHeader opcode payload.length, payload]
  | client => [clientFrameBytes opcode payload]

/-- Whether the other end expects its frames masked. -/
def masked : WebSocketEnd → Bool
  | server => false
  | client => true

def encode (self : WebSocketEnd) (frame : RawWebSocketFrame) : List UInt8 :=
  (self.frameParts frame.opcode frame.payload).flatten

end WebSocketEnd

/-- The length of a frame after its first two bytes; none while it is not
there. -/
def frameLength (field : Nat) (rest : List UInt8) : Option (Nat × List UInt8) :=
  if field = 126 then
    if rest.length < 2 then none
    else some (beNat (rest.take 2), rest.drop 2)
  else if field = 127 then
    if rest.length < 8 then none
    else some (beNat (rest.take 8), rest.drop 8)
  else some (field, rest)

/-- `parse_buffered_raw_frame`: the first frame of the buffer and what is left
of it; none while the frame is not complete. -/
def parseBufferedRawFrame (expectMasked : Bool) :
    List UInt8 → Except IoError (Option (RawWebSocketFrame × List UInt8))
  | first :: second :: rest =>
    let masked := second &&& 0x80 != 0
    if expectMasked && !masked then
      .error ⟨.invalidData, "client websocket frame must be masked"⟩
    else if !expectMasked && masked then
      .error ⟨.invalidData, "server websocket frame must not be masked"⟩
    else
      match frameLength (second &&& 0x7f).toNat rest with
      | none => .ok none
      | some (len, rest) =>
        if maxHttpHeader * 64 < len then
          .error ⟨.invalidData, "websocket frame too large"⟩
        else
          let maskLen := if masked then 4 else 0
          if rest.length < maskLen + len then .ok none
          else
            let payload := (rest.drop maskLen).take len
            .ok (some (
              { fin := first &&& 0x80 != 0, opcode := first &&& 0x0f
                payload := if masked then
                  applyMask (rest.take maskLen) payload else payload },
              rest.drop (maskLen + len)))
  | _ => .ok none

/-- The reader takes these frames off the buffer, one after the other. -/
inductive Parses (expectMasked : Bool) : List UInt8 → List RawWebSocketFrame → Prop where
  | nil : Parses expectMasked [] []
  | cons {buffer rest : List UInt8} {frame : RawWebSocketFrame} {frames : List RawWebSocketFrame}
      (hframe : parseBufferedRawFrame expectMasked buffer = .ok (some (frame, rest)))
      (hrest : Parses expectMasked rest frames) : Parses expectMasked buffer (frame :: frames)

theorem applyMask_applyMask (mask payload : List UInt8) :
    applyMask mask (applyMask mask payload) = payload := by
  rw [applyMask, applyMask, mapIdx_mapIdx]
  apply ext_getElem
  · simp
  · intro index _ _
    rw [getElem_mapIdx, Function.comp_apply, UInt8.xor_assoc, UInt8.xor_self, UInt8.xor_zero]

/-- The second byte of a frame says its mask bit and its length field. -/
theorem second_byte : ∀ field < 128, (((0 ||| UInt8.ofNat field) &&& 0x80 != 0) = false ∧
      ((0 ||| UInt8.ofNat field) &&& 0x7f).toNat = field) ∧
    (((0x80 ||| UInt8.ofNat field) &&& 0x80 != 0) = true ∧
      ((0x80 ||| UInt8.ofNat field) &&& 0x7f).toNat = field) := by decide +kernel

theorem frameLength_octets {field count len : Nat}
    (hfield : field = 126 ∧ count = 2 ∨ field = 127 ∧ count = 8)
    (hlen : len < 256 ^ count) (rest : List UInt8) :
    frameLength field (beOctets count len ++ rest) = some (len, rest) := by
  have hlength := length_beOctets count len
  have htake : (beOctets count len ++ rest).take count = beOctets count len := take_left' hlength
  have hdrop : (beOctets count len ++ rest).drop count = rest := drop_left' hlength
  have henough : ¬ (beOctets count len ++ rest).length < count := by
    rw [length_append, hlength]
    omega
  rcases hfield with ⟨rfl, rfl⟩ | ⟨rfl, rfl⟩
  · rw [frameLength, if_pos rfl, if_neg henough, htake, hdrop, beNat_beOctets hlen]
  · rw [frameLength, if_neg (by decide), if_pos rfl, if_neg henough, htake,
      hdrop, beNat_beOctets hlen]

/-- A header is two bytes and the rest of the length, which read back. -/
theorem frameHeader_spec {len : Nat} (hlen : len < 2 ^ 64) : ∃ field extended, field < 128 ∧
      (∀ maskBit opcode, frameHeader maskBit opcode len =
        (0x80 ||| opcode) :: (maskBit ||| .ofNat field) :: extended) ∧
      ∀ rest, frameLength field (extended ++ rest) = some (len, rest) := by
  by_cases hshort : len < 126
  · refine ⟨len, [], by omega, fun maskBit opcode => ?_, fun rest => ?_⟩
    · rw [frameHeader, if_pos hshort]
    · rw [frameLength, if_neg (by omega), if_neg (by omega), nil_append]
  by_cases hmiddle : len ≤ 65535
  · refine ⟨126, beOctets 2 len, by decide, fun maskBit opcode => ?_, ?_⟩
    · rw [frameHeader, if_neg hshort, if_pos hmiddle]
      rfl
    · exact frameLength_octets (.inl ⟨rfl, rfl⟩) (by omega)
  · refine ⟨127, beOctets 8 len, by decide, fun maskBit opcode => ?_, ?_⟩
    · rw [frameHeader, if_neg hshort, if_neg hmiddle]
      rfl
    · exact frameLength_octets (.inr ⟨rfl, rfl⟩) (by omega)

theorem parse_complete {second : UInt8} {masked : Bool} {buffer : List UInt8} {len : Nat}
    {rest : List UInt8} {first : UInt8} (hmasked : (second &&& 0x80 != 0) = masked)
    (hlength : frameLength (second &&& 0x7f).toNat buffer = some (len, rest))
    (hfits : len ≤ maxHttpHeader * 64) (henough : (if masked then 4 else 0) + len ≤ rest.length) :
    parseBufferedRawFrame masked (first :: second :: buffer) = .ok (some (
        { fin := first &&& 0x80 != 0, opcode := first &&& 0x0f
          payload := if masked then
            applyMask (rest.take 4) ((rest.drop 4).take len)
            else rest.take len },
        rest.drop ((if masked then 4 else 0) + len))) := by
  rw [parseBufferedRawFrame]
  simp only [hmasked, hlength]
  rw [if_neg (by simp), if_neg (by simp), if_neg (Nat.not_lt.2 hfits),
    if_neg (Nat.not_lt.2 henough)]
  cases masked <;> simp

structure RawWebSocketFrame.Sendable (frame : RawWebSocketFrame) : Prop where
  fin : frame.fin = true
  opcode : frame.opcode = opcodeBinary ∨ frame.opcode = opcodePong
  fits : frame.payload.length ≤ maxHttpHeader * 64

open WebSocketEnd

variable {frame : RawWebSocketFrame}

/-- A complete frame reads back, and what follows is left alone. -/
theorem parse_encode (self : WebSocketEnd) (hframe : frame.Sendable) (rest : List UInt8) :
    parseBufferedRawFrame self.masked (self.encode frame ++ rest) = .ok (some (frame, rest)) := by
  obtain ⟨hfin, hopcode, hfits⟩ := hframe
  obtain ⟨fin, opcode, payload⟩ := frame
  dsimp only at hfin hopcode hfits
  subst hfin
  have hfirst : ((0x80 ||| opcode) &&& 0x80 != 0) = true ∧ (0x80 ||| opcode) &&& 0x0f = opcode := by
    rcases hopcode with rfl | rfl <;> decide
  have hlen : payload.length < 2 ^ 64 := by
    rw [maxHttpHeader] at hfits
    omega
  obtain ⟨field, extended, hfield, hheader, hlength⟩ := frameHeader_spec hlen
  obtain ⟨⟨hplain, hplainField⟩, hmasked, hmaskedField⟩ := second_byte field hfield
  cases self with
  | server =>
    have hbytes : server.encode ⟨true, opcode, payload⟩ ++ rest =
        (0x80 ||| opcode) :: (0 ||| .ofNat field) :: (extended ++ (payload ++ rest)) := by
      simp [encode, frameParts, serverFrameHeader, hheader]
    rw [hbytes, masked,
      parse_complete hplain (by rw [hplainField, hlength]) hfits (by simp), hfirst.1, hfirst.2]
    simp
  | client =>
    have hbytes : client.encode ⟨true, opcode, payload⟩ ++ rest =
        (0x80 ||| opcode) :: (0x80 ||| .ofNat field) ::
          (extended ++ (clientMask ++ (applyMask clientMask payload ++ rest))) := by
      simp [encode, frameParts, clientFrameBytes, hheader]
    have hmaskedLength : (applyMask clientMask payload).length = payload.length := length_mapIdx
    have htake : (applyMask clientMask payload ++ rest).take
        payload.length = applyMask clientMask payload :=
      take_left' hmaskedLength
    have hdrop : (applyMask clientMask payload ++ rest).drop
        payload.length = rest := drop_left' hmaskedLength
    have hfour : clientMask.length = 4 := rfl
    have henough : 4 + payload.length ≤ (clientMask ++
        (applyMask clientMask payload ++ rest)).length := by
      rw [length_append, length_append, hfour, hmaskedLength]
      omega
    rw [hbytes, masked,
      parse_complete hmasked (by rw [hmaskedField, hlength]) hfits henough, hfirst.1, hfirst.2]
    simp only [if_true, ← drop_drop]
    rw [take_left' hfour, drop_left' hfour, htake, hdrop, applyMask_applyMask]

theorem parses_encode {frames : List RawWebSocketFrame}
    (self : WebSocketEnd) (hframes : ∀ frame ∈ frames, frame.Sendable) :
    Parses self.masked (frames.flatMap self.encode) frames := by
  induction frames with
  | nil => exact .nil
  | cons frame frames ih =>
    obtain ⟨hframe, hrest⟩ := forall_mem_cons.1 hframes
    rw [flatMap_cons]
    exact .cons (parse_encode self hframe _) (ih hrest)

/-- What a read of the relay's buffer returns. -/
structure RelayChunk where
  bytes : List UInt8
  nonempty : bytes ≠ []
  fits : bytes.length ≤ 16 * 1024

/-- The payload of a ping that passed `validate_control_frame`. -/
structure PingData where
  bytes : List UInt8
  fits : bytes.length ≤ 125

/-- What the socket answers while one frame is written, for each call of
`write_all`. -/
abbrev Attempt := List (List SocketWrite)

/-- What the relay writes: a chunk, attempt by attempt, with what the flush at
its end says; or the answer to a ping, for which there is one attempt. -/
inductive WebSocketWrite where
  | chunk (chunk : RelayChunk) (attempts : List Attempt) (flushed : Bool)
  | pong (data : PingData) (attempt : Attempt)

namespace WebSocketEnd

variable (self : WebSocketEnd)

/-- `Write for WebSocketWriter` and `Write for WebSocketClientStream` -/
def frameWrite : Writer Unit UInt8 Attempt UInt8 :=
  frameWriter socketWrite (self.frameParts opcodeBinary)

/-- One write.  A pong that finds no room is given up, and the relay goes on;
after any other error the socket takes nothing more. -/
def put : WebSocketWrite → Outcome Unit UInt8
  | .chunk chunk attempts flushed =>
    let written := writeAllWait self.frameWrite () chunk.bytes attempts
    if written.ended = .done ∧ flushed = false then
      { written with ended := .failed }
    else written
  | .pong data attempt =>
    match writeParts socketWrite () (self.frameParts opcodePong data.bytes) attempt with
    | (_, emitted, none) => ⟨(), emitted, .done⟩
    | (_, emitted, some .blocked) => ⟨(), emitted, .done⟩
    | (_, emitted, some .interrupted) => ⟨(), emitted, .failed⟩
    | (_, emitted, some .failed) => ⟨(), emitted, .failed⟩
    | (_, emitted, some (.took _)) => ⟨(), emitted, .failed⟩

/-- The bytes a run puts on the wire. -/
def putAll (writes : List WebSocketWrite) : Outcome Unit UInt8 :=
  inTurn (fun _ => self.put) () writes

/-- The socket takes a part of the frame in this attempt, and then has no
room. -/
def CutOff (opcode : UInt8) (payload : List UInt8) (attempt : Attempt) :
    Prop :=
  (writeParts socketWrite () (self.frameParts opcode payload) attempt).2.2 = some .blocked ∧
    (writeParts socketWrite () (self.frameParts opcode payload) attempt).2.1 ≠ []

/-- None of the attempts of a write is cut off. -/
def Uncut : WebSocketWrite → Prop
  | .chunk chunk attempts _ =>
    ∀ offer ∈ offers self.frameWrite () chunk.bytes attempts,
      ¬ self.CutOff opcodeBinary offer.input offer.turn
  | .pong data attempt => ¬ self.CutOff opcodePong data.bytes attempt

/-- The frame of a write; none for a pong that finds no room. -/
def frameOf : WebSocketWrite → List RawWebSocketFrame
  | .chunk chunk _ _ => [⟨true, opcodeBinary, chunk.bytes⟩]
  | .pong data attempt =>
    if (writeParts socketWrite () (self.frameParts opcodePong data.bytes)
        attempt).2.2 = some .blocked then []
    else [⟨true, opcodePong, data.bytes⟩]

/-- What a write puts on the wire besides its frame. -/
def lost : WebSocketWrite → Nat
  | .chunk chunk attempts _ => wasted self.frameWrite () chunk.bytes attempts
  | .pong data attempt =>
    if (writeParts socketWrite () (self.frameParts opcodePong data.bytes)
        attempt).2.2 = some .blocked then
      (writeParts socketWrite () (self.frameParts opcodePong data.bytes) attempt).2.1.length
    else 0

theorem harmless_frameWrite_iff {offer : Offer Unit UInt8 Attempt} (hinput : offer.input ≠ []) :
    offer.Harmless self.frameWrite ↔ ¬ self.CutOff opcodeBinary offer.input offer.turn := by
  obtain ⟨state, input, turn⟩ := offer
  obtain ⟨first, rest, rfl⟩ := exists_cons_of_ne_nil hinput
  rw [Offer.Harmless, frameWrite, frameWriter, CutOff]
  dsimp only
  rcases writeParts socketWrite () (self.frameParts opcodeBinary
    (first :: rest)) turn with ⟨next, emitted, _ | answer⟩
  · simp
  · simp

theorem lost_eq_zero_iff (write : WebSocketWrite) : self.lost write = 0 ↔ self.Uncut write := by
  cases write with
  | chunk chunk attempts flushed =>
    rw [lost, wasted_eq_zero_iff, Uncut]
    exact forall₂_congr fun offer hoffer =>
      self.harmless_frameWrite_iff (input_ne_nil_of_mem_offers _ hoffer)
  | pong data attempt =>
    rw [lost, Uncut, CutOff]
    split
    all_goals
      rename_i hblocked
      simp [hblocked]

theorem encode_chunk (chunk : RelayChunk) :
    Plain.frameOf (self.frameParts opcodeBinary) chunk.bytes =
      self.encode ⟨true, opcodeBinary, chunk.bytes⟩ := by
  obtain ⟨first, rest, hbytes⟩ := exists_cons_of_ne_nil chunk.nonempty
  rw [hbytes, Plain.frameOf, encode]

theorem measured_put :
    Measured (fun (_ : Unit) => self.put) (fun write => (self.frameOf write).flatMap self.encode)
      (fun _ => self.lost) where
  length {state write} hdone := by
    cases write with
    | chunk chunk attempts flushed =>
      have hfaithful := plain_socketWrite.faithful_frameWriter (self.frameParts opcodeBinary)
      rw [put] at hdone ⊢
      split at hdone
      · simp at hdone
      next hflushed =>
        rw [if_neg hflushed, frameOf, lost, flatMap_singleton, ← encode_chunk]
        exact hfaithful.length_writeAllWait hdone
    | pong data attempt =>
      obtain ⟨-, hall, -⟩ := plain_socketWrite.writeParts_spec ()
        (self.frameParts opcodePong data.bytes) attempt
      rw [put] at hdone ⊢
      rw [frameOf, lost]
      rcases hparts : writeParts socketWrite () (self.frameParts opcodePong data.bytes) attempt with
        ⟨next, emitted, stopped⟩
      rw [hparts] at hdone hall
      rcases stopped with _ | _ | _ | _ | _
      · have hemitted : emitted = _ := hall rfl
        subst hemitted
        simp [encode]
      · simp at hdone
      · simp
      · simp at hdone
      · simp at hdone
  clean {state write} hclean := by
    cases write with
    | chunk chunk attempts flushed =>
      have hfaithful := plain_socketWrite.faithful_frameWriter (self.frameParts opcodeBinary)
      have hwritten := hfaithful.writeAllWait_clean hclean
      rw [encode_chunk] at hwritten
      rw [put, frameOf, flatMap_singleton]
      split
      · exact ⟨hwritten.1, by simp⟩
      · exact hwritten
    | pong data attempt =>
      obtain ⟨hpre, hall, -⟩ := plain_socketWrite.writeParts_spec ()
        (self.frameParts opcodePong data.bytes) attempt
      rw [lost] at hclean
      rw [put, frameOf]
      rcases hparts : writeParts socketWrite () (self.frameParts opcodePong data.bytes) attempt with
        ⟨next, emitted, stopped⟩
      rw [hparts] at hclean hpre hall
      rcases stopped with _ | _ | _ | _ | _
      · have hemitted : emitted = _ := hall rfl
        subst hemitted
        simp [encode]
      · simpa [encode] using hpre
      · simpa using hclean
      · simpa [encode] using hpre
      · simpa [encode] using hpre

/-- Every attempt of the writes that are begun is uncut. -/
def NeverCutOff (writes : List WebSocketWrite) : Prop :=
  ∀ write ∈ begun (fun _ => self.put) () writes, self.Uncut write.2

def framesOf (writes : List WebSocketWrite) : List RawWebSocketFrame :=
  writes.flatMap self.frameOf

theorem sendable_of_mem_framesOf {writes : List WebSocketWrite}
    (hframe : frame ∈ self.framesOf writes) :
    frame.Sendable := by
  obtain ⟨write, -, hframe⟩ := mem_flatMap.1 hframe
  cases write with
  | chunk chunk attempts flushed =>
    rw [mem_singleton.1 hframe]
    have hfits := chunk.fits
    refine ⟨rfl, .inl rfl, ?_⟩
    rw [maxHttpHeader]
    dsimp only
    omega
  | pong data attempt =>
    rw [frameOf] at hframe
    split at hframe
    · simp at hframe
    · rw [mem_singleton.1 hframe]
      have hfits := data.fits
      refine ⟨rfl, .inr rfl, ?_⟩
      rw [maxHttpHeader]
      dsimp only
      omega

end WebSocketEnd

def WebSocketWrite.relayed : WebSocketWrite → List UInt8
  | .chunk data _ _ => data.bytes
  | .pong _ _ => []

def dataOf (frames : List RawWebSocketFrame) : List UInt8 :=
  (frames.filter fun frame => frame.opcode = opcodeBinary).flatMap RawWebSocketFrame.payload

namespace WebSocketEnd

theorem dataOf_framesOf (self : WebSocketEnd) (writes : List WebSocketWrite) :
    dataOf (self.framesOf writes) = writes.flatMap WebSocketWrite.relayed := by
  induction writes with
  | nil => rfl
  | cons write writes ih =>
    have hhead : dataOf (self.frameOf write) = write.relayed := by
      cases write with
      | chunk chunk attempts flushed => simp [dataOf, frameOf, WebSocketWrite.relayed]
      | pong data attempt =>
        rw [frameOf]
        split <;> rfl
    rw [flatMap_cons, ← ih, ← hhead, framesOf, flatMap_cons, dataOf, filter_append, flatMap_append]
    rfl

/-- If no attempt is cut off, the wire carries complete frames and perhaps the
start of one more; once everything is written, it carries exactly the frames if
and only if none was.  The other end reads these frames back, and their data is
what was relayed. -/
theorem wire_eq_frames_iff (self : WebSocketEnd) (writes : List WebSocketWrite) :
    (self.NeverCutOff writes → (self.putAll writes).wire <+:
        (self.framesOf writes).flatMap self.encode) ∧ ((self.putAll writes).ended = .done →
      ((self.putAll writes).wire = (self.framesOf writes).flatMap self.encode ↔
        self.NeverCutOff writes)) ∧
    Parses self.masked ((self.framesOf writes).flatMap self.encode) (self.framesOf writes) ∧
    dataOf (self.framesOf writes) = writes.flatMap WebSocketWrite.relayed := by
  have hspec := self.measured_put.wire_spec () writes
  simp only [lost_eq_zero_iff] at hspec
  have hframes : writes.flatMap (fun write => (self.frameOf write).flatMap self.encode) =
      (self.framesOf writes).flatMap self.encode :=
    (flatMap_assoc ..).symm
  rw [hframes] at hspec
  exact ⟨hspec.1, hspec.2, parses_encode self fun _ => self.sendable_of_mem_framesOf,
    self.dataOf_framesOf writes⟩

end WebSocketEnd

namespace Sample

def seven : RelayChunk := ⟨[7], by decide, by decide⟩

/-- The socket has no room before the frame, or after its first byte. -/
def roomLater (first : List SocketWrite) : List WebSocketWrite :=
  [.chunk seven [[first ++ [.error wouldBlock]], [[.wrote 9], [.wrote 9]]] true]

end Sample

open Sample

theorem frame_after_waiting : WebSocketEnd.server.NeverCutOff (roomLater []) ∧
    (WebSocketEnd.server.putAll (roomLater [])).wire = [0x82, 1, 7] := by
  obtain ⟨-, hiff, -⟩ := server.wire_eq_frames_iff (roomLater [])
  exact ⟨(hiff (by decide +kernel)).1 (by decide +kernel), by decide +kernel⟩

/-- The first byte of the frame is on the wire when the frame starts again: a
client refuses the frame, and a server reads other data in it. -/
theorem frame_starts_twice :
    (WebSocketEnd.server.putAll (roomLater [.wrote 1])).ended = .done ∧
      (WebSocketEnd.server.putAll (roomLater [.wrote 1])).wire = [0x82, 0x82, 1, 7] ∧
      parseBufferedRawFrame false [0x82, 0x82, 1, 7] = .error
        ⟨.invalidData, "server websocket frame must not be masked"⟩ ∧
      (WebSocketEnd.client.putAll (roomLater [.wrote 1])).wire =
        [0x82, 0x82, 0x81, 1, 2, 3, 4, 6] ∧
      parseBufferedRawFrame true [0x82, 0x82, 0x81, 1, 2, 3, 4, 6] =
        .ok (some (⟨true, 2, [0x85, 7]⟩, [])) := by decide +kernel

end KeliCore
