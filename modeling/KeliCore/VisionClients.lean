/-
What a Vision client sends: padded frames through TLS and, behind a frame that
says so, bytes that bypass it.
-/
import KeliCore.VisionRoundTrip

namespace KeliCore

open VisionDecoder List VisionState

variable (userId : VisionUserId)

def VisionState.isDirect (state : VisionState) : Bool :=
  state.currentCommand == commandPaddingDirect && state.plain

/-- Plaintext that a decoder takes apart, and the bytes that bypass TLS behind
a frame that announces them. -/
structure VisionClient (userId : VisionUserId) where
  plaintext : List UInt8
  raw : List UInt8
  final : VisionState
  unpadded : List UInt8
  decodes : ((VisionDecoder.new userId).push plaintext).decodeAll = .ok (final, unpadded)
  /-- Nothing is sent through TLS behind the frame that leaves it. -/
  direct_last : ∀ early late state out, early ++ late = plaintext →
    ((VisionDecoder.new userId).push early).decodeAll = .ok (state, out) →
    state.isDirect = true → late = []
  raw_direct : raw ≠ [] → final.isDirect = true

section Frames

variable {state : VisionState} {output : List UInt8}

theorem commandByte_plain (data : UInt8) : (state.commandByte data).plain = state.plain := by
  unfold commandByte
  dsimp only
  split <;> rfl

variable {part out : List UInt8}

/-- A frame after which framing goes on: its content and its padding. -/
structure PlainFrame where
  content : List UInt8
  padding : List UInt8
  content_fits : content.length ≤ 65535
  padding_fits : padding.length ≤ 65535

/-- How the frames of a client end: not at all, with a frame behind which TLS
goes on without them, or with one that leaves TLS. -/
inductive FrameEnding where
  | none
  | padded (last : PlainFrame) (tail : List UInt8)
  | direct (last : PlainFrame) (raw : List UInt8)

def FrameEnding.bytes : FrameEnding → List UInt8
  | .none => []
  | .padded last tail => visionFrame commandPaddingEnd last.content last.padding ++ tail
  | .direct last _ => visionFrame commandPaddingDirect last.content last.padding

def FrameEnding.unpadded : FrameEnding → List UInt8
  | .none => []
  | .padded last tail => last.content ++ tail
  | .direct last _ => last.content

def FrameEnding.raw : FrameEnding → List UInt8
  | .none | .padded _ _ => []
  | .direct _ raw => raw

end Frames

theorem processBuffer_short {bytes : List UInt8} (hshort : bytes.length < 21) :
    ((VisionDecoder.new userId).push bytes).processBuffer =
      ((VisionDecoder.new userId).push bytes, .ok ()) := by
  rw [processBuffer, if_neg (by simp [push, new]), if_neg (by simp [push, new])]
  exact if_pos hshort

theorem decodeAll_short {bytes : List UInt8} (hshort : bytes.length < 21) :
    ((VisionDecoder.new userId).push bytes).decodeAll =
      .ok ((VisionDecoder.new userId).state, bytes) :=
  decodeAll_ok (processBuffer_short userId hshort)

end KeliCore
