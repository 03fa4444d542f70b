/-
The body of a VMess connection.  The writer cuts what it is given into chunks
of a size, a payload and padding, and ends with an empty chunk; the reader takes
the chunks apart again, and can stop and go on wherever the connection has
nothing yet.
-/
import KeliCore.Reading
import KeliCore.VmessSize

namespace KeliCore

open Reading VmessSizeParser

def maxChunkSize : Nat := 64 * 1024 - 80

/-- A body without chunks: no security and no chunk stream. -/
def unframed (security : VmessSecurity) (options : UInt8) : Bool :=
  security == .none && !hasOption options optionChunkStream

/-- What both ends are made from. -/
structure BodySeed where
  key : BitVec 128
  iv : BitVec 128
  lengthKeySeed : BitVec 128
  lengthIvSeed : BitVec 128

/-- `VmessBodyEncoder`, with the position in the random bytes it draws. -/
structure VmessBodyEncoder where
  security : VmessSecurity
  key : BitVec 128
  size : VmessSizeParser
  nonce : ChunkNonce
  options : UInt8
  finished : Bool := false
  drawn : Nat := 0

/-- A chunk on the wire, as it is written part by part, and the size in front
of it. -/
structure WrittenChunk where
  header : List UInt8
  payload : List UInt8
  padding : List UInt8
  totalSize : Nat

def WrittenChunk.bytes (chunk : WrittenChunk) : List UInt8 :=
  chunk.header ++ chunk.payload ++ chunk.padding

/-- What a call puts on the wire. -/
structure Written where
  bytes : List UInt8 := []
  reported : Nat := 0
  totalSizes : List Nat := []

namespace VmessBodyEncoder

variable (crypto : VmessCrypto) (random : Nat → UInt8)

/-- `new_with_length_seed` -/
def new (seed : BodySeed) (options : UInt8) (security : VmessSecurity) : VmessBodyEncoder where
  security := security
  key := seed.key
  size := .new crypto seed.iv seed.lengthKeySeed seed.lengthIvSeed options security
  nonce := { iv := seed.iv }
  options := options

def writeChunk (encoder : VmessBodyEncoder) (input : List UInt8) :
    VmessBodyEncoder × Except IoError WrittenChunk :=
  let padded := encoder.size.paddingLen crypto encoder.options
  let encoder := { encoder with size := padded.1 }
  match padded.2 with
  | .error error => (encoder, .error error)
  | .ok padding =>
    let payload := sealPayload crypto encoder.security encoder.key encoder.nonce input
    let encoder := { encoder with nonce := payload.1 }
    let totalSize := payload.2.length + padding
    if 65535 < totalSize then
      (encoder, .error ⟨.invalidInput, "vmess chunk is too large"⟩)
    else
      let encoded := encoder.size.encode crypto (.ofNat totalSize)
      let encoder := { encoder with size := encoded.1 }
      match encoded.2 with
      | .error error => (encoder, .error error)
      | .ok header =>
        let paddingBytes := (List.range padding).map fun index => random (encoder.drawn + index)
        ({ encoder with drawn := encoder.drawn + padding },
          .ok ⟨header, payload.2, paddingBytes, totalSize⟩)

/-- The loop of `write_plain`. -/
def writeChunks (encoder : VmessBodyEncoder) (input : List UInt8) :
    VmessBodyEncoder × Except IoError (List WrittenChunk) :=
  if _ : input = [] then (encoder, .ok [])
  else
    match encoder.writeChunk crypto random (input.take maxChunkSize) with
    | (encoder, .error error) => (encoder, .error error)
    | (encoder, .ok chunk) =>
      let rest := writeChunks encoder (input.drop maxChunkSize)
      (rest.1, rest.2.map (chunk :: ·))
termination_by input.length
decreasing_by
  have hpos : 0 < input.length := List.length_pos_iff.2 ‹_›
  rw [List.length_drop]
  unfold maxChunkSize
  omega

/-- `write_plain`; an unframed write is as long as the writer below takes. -/
def writePlain (encoder : VmessBodyEncoder) (input : List UInt8)
    (taken : Nat) : VmessBodyEncoder × Except IoError Written :=
  if input = [] then (encoder, .ok {})
  else if unframed encoder.security encoder.options then
    (encoder, .ok { bytes := input.take taken, reported := (input.take taken).length })
  else
    let chunks := encoder.writeChunks crypto random input
    (chunks.1, chunks.2.map fun chunks =>
      { bytes := chunks.flatMap WrittenChunk.bytes, reported := input.length
        totalSizes := chunks.map WrittenChunk.totalSize })

def finish (encoder : VmessBodyEncoder) : VmessBodyEncoder × Except IoError Written :=
  if encoder.finished then (encoder, .ok {})
  else
    let encoder := { encoder with finished := true }
    if unframed encoder.security encoder.options then (encoder, .ok {})
    else
      let chunk := encoder.writeChunk crypto random []
      (chunk.1, chunk.2.map fun chunk =>
        { bytes := chunk.bytes, totalSizes := [chunk.totalSize] })

end VmessBodyEncoder

/-- A call of the writer: the bytes, and how many of them the writer below
would take at once. -/
structure BodyWrite where
  input : List UInt8
  taken : Nat

/-- A whole body: its wire bytes, what the calls reported as written, and the
sizes of its chunks. -/
structure Body where
  bytes : List UInt8 := []
  content : List UInt8 := []
  totalSizes : List Nat := []

/-- A sequence of writes and the end of the body. -/
def writeBody (crypto : VmessCrypto) (random : Nat → UInt8)
    (encoder : VmessBodyEncoder) : List BodyWrite → Except IoError Body
  | [] => do
      let last ← (encoder.finish crypto random).2
      return { bytes := last.bytes, totalSizes := last.totalSizes }
  | write :: writes => do
      let next := encoder.writePlain crypto random write.input write.taken
      let written ← next.2
      let rest ← writeBody crypto random next.1 writes
      return {
        bytes := written.bytes ++ rest.bytes
        content := write.input.take written.reported ++ rest.content
        totalSizes := written.totalSizes ++ rest.totalSizes }

/-- `VmessBodyDecoder`.  Of the size and the chunk being read, the part that
has arrived; a chunk of length zero is none. -/
structure VmessBodyDecoder where
  security : VmessSecurity
  key : BitVec 128
  size : VmessSizeParser
  nonce : ChunkNonce
  options : UInt8
  buffer : List UInt8 := []
  sizeRead : List UInt8 := []
  chunkLen : Nat := 0
  chunkRead : List UInt8 := []
  chunkPadding : Nat := 0
  eof : Bool := false

namespace VmessBodyDecoder

variable (crypto : VmessCrypto) {decoder next : VmessBodyDecoder}

/-- `new_with_length_seed` -/
def new (seed : BodySeed) (options : UInt8) (security : VmessSecurity) : VmessBodyDecoder where
  security := security
  key := seed.key
  size := .new crypto seed.iv seed.lengthKeySeed seed.lengthIvSeed options security
  nonce := { iv := seed.iv }
  options := options

/-- A complete size: the end of the body, or a chunk to read. -/
def beginChunk (decoder : VmessBodyDecoder) : VmessBodyDecoder × Except IoError Unit :=
  let padded := decoder.size.paddingLen crypto decoder.options
  let decoder := { decoder with size := padded.1 }
  match padded.2 with
  | .error error => (decoder, .error error)
  | .ok padding =>
    let decoded := decoder.size.decode crypto decoder.sizeRead
    let decoder := { decoder with size := decoded.1 }
    match decoded.2 with
    | .error error => (decoder, .error error)
    | .ok size =>
      let decoder := { decoder with sizeRead := [] }
      let least := decoder.security.overhead + padding
      if size.toNat = least then ({ decoder with eof := true }, .ok ())
      else if size.toNat < least then
        (decoder, .error ⟨.invalidData, "invalid vmess chunk size"⟩)
      else
        ({ decoder with
          chunkLen := size.toNat, chunkRead := [],
          chunkPadding := padding }, .ok ())

def openChunk (decoder : VmessBodyDecoder) : VmessBodyDecoder × Except IoError Unit :=
  let opened := openPayload crypto decoder.security decoder.key decoder.nonce
    (decoder.chunkRead.take (decoder.chunkLen - decoder.chunkPadding))
  let decoder := { decoder with nonce := opened.1 }
  match opened.2 with
  | .error error => (decoder, .error error)
  | .ok buffer =>
    ({ decoder with
      buffer, chunkLen := 0, chunkRead := [], chunkPadding := 0 }, .ok ())

/-- The second half of `read_next_chunk`. -/
def readChunk (decoder : VmessBodyDecoder) (source : Source UInt8) :
    VmessBodyDecoder × Source UInt8 × Except IoError Unit :=
  let fill := fill decoder.chunkLen decoder.chunkRead source
  let decoder := { decoder with chunkRead := fill.filled }
  match fill.stopped with
  | .blocked => (decoder, fill.source, .error wouldBlock)
  | .ended => (decoder, fill.source, .error ⟨.unexpectedEof, "truncated vmess chunk"⟩)
  | .full =>
    let opened := decoder.openChunk crypto
    (opened.1, fill.source, opened.2)

def readNextChunk (decoder : VmessBodyDecoder) (source : Source UInt8) :
    VmessBodyDecoder × Source UInt8 × Except IoError Unit :=
  if decoder.eof then (decoder, source, .ok ())
  else if decoder.chunkLen ≠ 0 then decoder.readChunk crypto source
  else
    let fill := fill decoder.size.sizeBytes decoder.sizeRead source
    let decoder := { decoder with sizeRead := fill.filled }
    match fill.stopped with
    | .blocked => (decoder, fill.source, .error wouldBlock)
    | .ended =>
      if fill.filled = [] then
        ({ decoder with eof := true }, fill.source, .ok ())
      else
        (decoder, fill.source, .error ⟨.unexpectedEof, "truncated vmess chunk size"⟩)
    | .full =>
      match decoder.beginChunk crypto with
      | (decoder, .error error) => (decoder, fill.source, .error error)
      | (decoder, .ok ()) =>
        if decoder.eof then (decoder, fill.source, .ok ())
        else decoder.readChunk crypto fill.source

/-- What bounds the turns of the loop of `read_plain`: the bytes still to
come, and a chunk that is being read. -/
def left (decoder : VmessBodyDecoder) (source : Source UInt8) : Nat :=
  2 * source.bytes.length + if decoder.chunkLen = 0 then 0 else 1

variable {source rest : Source UInt8}

theorem readChunk_left (hread : decoder.readChunk crypto source = (next, rest, .ok ())) :
    next.chunkLen = 0 ∧ rest.bytes.length ≤ source.bytes.length ∧ (decoder.chunkRead = [] →
        rest.bytes.length + decoder.chunkLen ≤ source.bytes.length) := by
  obtain ⟨hlengths, hmore, hfull⟩ := length_fill decoder.chunkLen decoder.chunkRead source
  unfold readChunk at hread
  dsimp only at hread
  split at hread
  · simp at hread
  · simp at hread
  next hstop =>
    have hroom := hfull hstop
    unfold openChunk at hread
    dsimp only at hread
    split at hread
    · simp at hread
    · cases hread
      refine ⟨rfl, by omega, fun hnil => ?_⟩
      have hzero : decoder.chunkRead.length = 0 := by rw [hnil]; rfl
      omega

/-- After a size comes the end of the body or a chunk that is not empty. -/
theorem beginChunk_cases (hbegin : decoder.beginChunk crypto = (next, .ok ())) :
    next.eof = true ∨ (next.chunkRead = [] ∧ 0 < next.chunkLen) := by
  unfold beginChunk at hbegin
  dsimp only at hbegin
  split at hbegin
  · simp at hbegin
  · split at hbegin
    · simp at hbegin
    · split at hbegin
      · simp only [Prod.mk.injEq, and_true] at hbegin
        left
        rw [← hbegin]
      · split at hbegin
        · simp at hbegin
        · simp only [Prod.mk.injEq, and_true] at hbegin
          right
          rw [← hbegin]
          exact ⟨rfl, by dsimp only; omega⟩

theorem readNextChunk_left (heof : decoder.eof = false)
    (hread : decoder.readNextChunk crypto source = (next, rest, .ok ()))
    (hnext : next.eof = false) :
    left next rest < left decoder source := by
  unfold readNextChunk at hread
  rw [if_neg (by simp [heof])] at hread
  split at hread
  next hchunk =>
    obtain ⟨hzero, hless, -⟩ := readChunk_left crypto hread
    simp only [left, hzero, hchunk, if_true, if_false]
    omega
  next hchunk =>
    rw [Decidable.not_not] at hchunk
    obtain ⟨hlengths, hmore, -⟩ := length_fill decoder.size.sizeBytes decoder.sizeRead source
    dsimp only at hread
    split at hread
    · simp at hread
    · split at hread
      · cases hread
        simp at hnext
      · simp at hread
    · split at hread
      · simp at hread
      next begun hbegin =>
        split at hread
        next hend =>
          simp only [Prod.mk.injEq, and_true] at hread
          rw [hread.1, hnext] at hend
          simp at hend
        next hmid =>
          obtain ⟨hzero, -, hless⟩ := readChunk_left crypto hread
          rcases beginChunk_cases crypto hbegin with hend | ⟨hnil, hlen⟩
          · exact absurd hend hmid
          · have hmoved := hless hnil
            simp only [left, hzero, hchunk, if_true]
            omega

/-- The loop of `read_plain` over the chunks of a framed body. -/
def fillBuffer (decoder : VmessBodyDecoder) (source : Source UInt8) :
    VmessBodyDecoder × Source UInt8 × Except IoError Unit :=
  if _ : decoder.buffer = [] ∧ decoder.eof = false then
    match _ : decoder.readNextChunk crypto source with
    | (next, rest, .error error) => (next, rest, .error error)
    | (next, rest, .ok ()) =>
      if _ : next.eof = true then (next, rest, .ok ())
      else fillBuffer next rest
  else (decoder, source, .ok ())
termination_by left decoder source
decreasing_by
  rename_i heof hread hnext
  exact readNextChunk_left crypto heof.2 hread (by simpa using hnext)

def readPlain (reader : VmessBodyDecoder × Source UInt8) (room : Nat) :
    (VmessBodyDecoder × Source UInt8) × Except IoError (List UInt8) :=
  let decoder := reader.1
  if room = 0 then (reader, .ok [])
  else if unframed decoder.security decoder.options then
    match reader.2.read room with
    | (rest, none) => ((decoder, rest), .error wouldBlock)
    | (rest, some piece) => ((decoder, rest), .ok piece)
  else
    match decoder.fillBuffer crypto reader.2 with
    | (decoder, rest, .error error) => ((decoder, rest), .error error)
    | (decoder, rest, .ok ()) =>
      (({ decoder with buffer := decoder.buffer.drop room }, rest), .ok (decoder.buffer.take room))

end VmessBodyDecoder

end KeliCore
