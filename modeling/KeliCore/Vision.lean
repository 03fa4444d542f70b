/-
Vision padding.  The encoder puts what is written into frames with a command, a
content and some padding, watches the content for a TLS handshake, and leaves
framing when the command says so; the decoder takes the frames apart a byte or a
run of bytes at a time and passes everything through once framing has ended.
-/
import KeliCore.Bytes
import KeliCore.Reading

namespace KeliCore

open Reading List

def commandPaddingContinue : UInt8 := 0x00
def commandPaddingEnd : UInt8 := 0x01
def commandPaddingDirect : UInt8 := 0x02

/-- The sixteen bytes of a user's uuid. -/
structure VisionUserId where
  bytes : List UInt8
  length_bytes : bytes.length = 16

structure VisionEncoder where
  userId : Option VisionUserId
  paddingActive : Bool := true
  directCopy : Bool := false
  isTls : Bool := false
  isTls12OrAbove : Bool := false
  remainingServerHello : Int := -1
  packetsToFilter : Int := 8

/-- What a frame draws at random: a word for the length of its padding, and the
bytes of it. -/
structure PaddingDraw where
  word : UInt16
  noise : Nat → UInt8

def startsWithTlsClientHello : List UInt8 → Bool
  | kind :: major :: _ :: _ :: _ :: handshake :: _ =>
    kind == 0x16 && major == 0x03 && handshake == 0x01
  | _ => false

def startsWithTlsServerHello : List UInt8 → Bool
  | kind :: major :: minor :: _ :: _ :: handshake :: _ =>
    kind == 0x16 && major == 0x03 && minor == 0x03 && handshake == 0x02
  | _ => false

def tlsRecordLen : List UInt8 → Option Nat
  | _ :: _ :: _ :: high :: low :: _ => some (high.toNat * 256 + low.toNat)
  | _ => none

/-- The loop of `is_complete_tls_application_data_records` from an offset on. -/
def completeRecordsFrom (sawRecord : Bool) (input : List UInt8) : Bool :=
  match input with
  | kind :: major :: minor :: high :: low :: rest =>
    if kind ≠ 0x17 ∨ major ≠ 0x03 ∨ minor ≠ 0x03 then false
    else
      let recordLen := high.toNat * 256 + low.toNat
      if rest.length < recordLen then false
      else completeRecordsFrom true (rest.drop recordLen)
  | rest => sawRecord && rest.isEmpty
termination_by input.length
decreasing_by
  simp only [List.length_drop, List.length_cons]
  omega

def isCompleteTlsApplicationDataRecords (input : List UInt8) : Bool :=
  completeRecordsFrom false input

def tls13SupportedVersionsExtension : List UInt8 :=
  [0x00, 0x2b, 0x00, 0x02, 0x03, 0x04]

/-- Whether some window of the data is the extension. -/
def hasSupportedVersions (data : List UInt8) : Bool :=
  data.tails.any fun tail => tls13SupportedVersionsExtension.isPrefixOf tail

def randomPaddingBelow (limit : Nat) (word : UInt16) : Nat :=
  if limit ≤ 1 then 0 else word.toNat % limit

/-- What `next_command` decides. -/
structure VisionCommand where
  command : UInt8
  keepPadding : Bool
  longPadding : Bool
  switchToDirect : Bool

namespace VisionEncoder

def new (userId : VisionUserId) : VisionEncoder where
  userId := some userId

/-- The first half of `filter_tls`: the packet is counted, and a hello is
noticed. -/
def noticeHello (encoder : VisionEncoder) (input : List UInt8) :
    VisionEncoder :=
  let encoder :=
    if 0 < encoder.packetsToFilter then
      { encoder with packetsToFilter := encoder.packetsToFilter - 1 }
    else encoder
  if startsWithTlsServerHello input then
    { encoder with
      remainingServerHello :=
        match tlsRecordLen input with
        | some length => length + 5
        | none => -1
      isTls12OrAbove := true
      isTls := true }
  else if startsWithTlsClientHello input then { encoder with isTls := true }
  else encoder

def filterTls (encoder : VisionEncoder) (input : List UInt8) :
    VisionEncoder :=
  let encoder := encoder.noticeHello input
  if 0 < encoder.remainingServerHello then
    let scanLen := min encoder.remainingServerHello.toNat input.length
    let remaining := encoder.remainingServerHello - input.length
    let encoder := { encoder with remainingServerHello := remaining }
    if hasSupportedVersions (input.take scanLen) ∨ remaining ≤ 0 then
      { encoder with packetsToFilter := 0 }
    else encoder
  else encoder

def nextCommand (encoder : VisionEncoder) (completeApplicationData : Bool) :
    VisionCommand :=
  if encoder.isTls ∧ completeApplicationData then
    ⟨commandPaddingDirect, false, true, true⟩
  else if ¬ encoder.isTls12OrAbove ∧ encoder.packetsToFilter ≤ 1 then
    ⟨commandPaddingEnd, false, encoder.isTls, false⟩
  else ⟨commandPaddingContinue, true, encoder.isTls, false⟩

def paddingLen (word : UInt16) (contentLen : Nat) (longPadding : Bool) : Nat :=
  let padding :=
    if contentLen < 900 ∧ longPadding then
      randomPaddingBelow 500 word + 900 - contentLen
    else randomPaddingBelow 256 word
  min padding (65535 - contentLen)

/-- A frame; the first one of a connection starts with the user id. -/
def frame (encoder : VisionEncoder) (command : UInt8) (content padding : List UInt8) : List UInt8 :=
  (match encoder.userId with
    | some userId => userId.bytes
    | none => []) ++
    command :: toBeBytes (.ofNat content.length) ++
      toBeBytes (.ofNat padding.length) ++ content ++ padding

def randomPadding (draw : PaddingDraw) (length : Nat) : List UInt8 :=
  (List.range length).map draw.noise

/-- What `encode` knows of a payload before it writes the frame. -/
def commandFor (encoder : VisionEncoder) (payload : List UInt8) :
    VisionCommand :=
  (encoder.filterTls payload).nextCommand (isCompleteTlsApplicationDataRecords payload)

def encode (encoder : VisionEncoder) (input : List UInt8)
    (draw : PaddingDraw) : VisionEncoder × List UInt8 :=
  if !encoder.paddingActive ∨ input = [] then (encoder, input)
  else
    let payload := input.take 65535
    let command := encoder.commandFor payload
    let padding := randomPadding draw (paddingLen draw.word payload.length command.longPadding)
    ({ encoder.filterTls payload with
        userId := none
        paddingActive := command.keepPadding
        directCopy := command.switchToDirect },
      encoder.frame command.command payload padding ++ input.drop 65535)

def emptyLongPaddingFrame (encoder : VisionEncoder) (draw : PaddingDraw) :
    VisionEncoder × Option (List UInt8) :=
  if !encoder.paddingActive then (encoder, none)
  else
    let padding := randomPadding draw (paddingLen draw.word 0 true)
    ({ encoder with userId := none }, some (encoder.frame commandPaddingContinue [] padding))

def finishPadding (encoder : VisionEncoder) : VisionEncoder × Option (List UInt8) :=
  if !encoder.paddingActive then (encoder, none)
  else
    ({ encoder with userId := none, paddingActive := false },
      some (encoder.frame commandPaddingEnd [] []))

end VisionEncoder

/-- What is done with an encoder. -/
inductive VisionOp where
  | write (input : List UInt8) (draw : PaddingDraw)
  | emptyPadding (draw : PaddingDraw)
  | finishPadding

/-- An encoder, the bytes it has produced and the bytes written to it. -/
structure VisionRun where
  encoder : VisionEncoder
  wire : List UInt8 := []
  content : List UInt8 := []

def VisionRun.step (run : VisionRun) : VisionOp → VisionRun
  | .write input draw =>
    let encoded := run.encoder.encode input draw
    { encoder := encoded.1, wire := run.wire ++ encoded.2
      content := run.content ++ input }
  | .emptyPadding draw =>
    let padded := run.encoder.emptyLongPaddingFrame draw
    { run with encoder := padded.1, wire := run.wire ++ padded.2.getD [] }
  | .finishPadding =>
    let finished := run.encoder.finishPadding
    { run with
      encoder := finished.1, wire := run.wire ++ finished.2.getD [] }

structure VisionState where
  userId : VisionUserId
  checkedPrefix : Bool := false
  sawVisionPrefix : Bool := false
  plain : Bool := false
  remainingCommand : Int := -1
  remainingContent : Int := -1
  remainingPadding : Int := -1
  currentCommand : UInt8 := commandPaddingContinue

structure VisionDecoder where
  state : VisionState
  input : List UInt8 := []
  output : List UInt8 := []

namespace VisionState

/-- A byte of a command; which one is told by how many are missing. -/
def commandByte (state : VisionState) (data : UInt8) : VisionState :=
  let state :=
    match state.remainingCommand with
    | 5 => { state with currentCommand := data }
    | 4 => { state with remainingContent := data.toNat <<< 8 }
    | 3 =>
      { state with
        remainingContent := state.remainingContent.toNat ||| data.toNat }
    | 2 => { state with remainingPadding := data.toNat <<< 8 }
    | 1 =>
      { state with
        remainingPadding := state.remainingPadding.toNat ||| data.toNat }
    | _ => state
  { state with remainingCommand := state.remainingCommand - 1 }

/-- Nothing is missing of the command, the content or the padding. -/
def idle (state : VisionState) : Bool :=
  state.remainingCommand ≤ 0 ∧ state.remainingContent ≤ 0 ∧ state.remainingPadding ≤ 0

theorem not_idle {state : VisionState} (hbusy : ¬ (state.remainingCommand ≤ 0 ∧
    state.remainingContent ≤ 0 ∧ state.remainingPadding ≤ 0)) : state.idle = false :=
  decide_eq_false hbusy

end VisionState

namespace VisionDecoder

def new (userId : VisionUserId) : VisionDecoder where
  state := { userId }

def push (decoder : VisionDecoder) (input : List UInt8) : VisionDecoder :=
  { decoder with input := decoder.input ++ input }

def finish (decoder : VisionDecoder) : VisionDecoder :=
  { decoder with input := [], output := decoder.output ++ decoder.input }

def isDirectCopy (decoder : VisionDecoder) : Bool :=
  decoder.state.currentCommand == commandPaddingDirect && decoder.state.plain

/-- What a turn of the loop of `process_buffer` takes from the input. -/
def consume (decoder : VisionDecoder) : VisionDecoder :=
  let state := decoder.state
  if 0 < state.remainingCommand then
    match decoder.input with
    | [] => decoder
    | data :: rest => { decoder with state := state.commandByte data, input := rest }
  else if 0 < state.remainingContent then
    let length := min state.remainingContent.toNat decoder.input.length
    { state := { state with remainingContent := state.remainingContent - length }
      input := decoder.input.drop length
      output := decoder.output ++ decoder.input.take length }
  else if 0 < state.remainingPadding then
    let length := min state.remainingPadding.toNat decoder.input.length
    { decoder with
      state := { state with remainingPadding := state.remainingPadding - length }
      input := decoder.input.drop length }
  else decoder

/-- What a turn does at the end of a frame. -/
def settle (decoder : VisionDecoder) : VisionDecoder × Except IoError Unit :=
  let state := decoder.state
  if !state.idle then (decoder, .ok ())
  else if state.currentCommand = commandPaddingContinue then
    ({ decoder with state := { state with remainingCommand := 5 } }, .ok ())
  else if state.currentCommand = commandPaddingEnd ∨
      state.currentCommand = commandPaddingDirect then
    ({ state :=
        { state with
          remainingCommand := -1, remainingContent := -1
          remainingPadding := -1, plain := true }
       input := []
       output := decoder.output ++ decoder.input }, .ok ())
  else
    (decoder, .error ⟨.invalidData, "unknown vision padding command " ++
      toString state.currentCommand.toNat⟩)

/-- What bounds the turns of the loop. -/
def work (decoder : VisionDecoder) : Nat :=
  2 * decoder.input.length + if decoder.state.idle then 1 else 0

variable {decoder : VisionDecoder}

theorem consume_of_idle (hidle : decoder.state.idle = true) : decoder.consume = decoder := by
  simp only [VisionState.idle, decide_eq_true_eq] at hidle
  unfold consume
  rw [if_neg (by omega), if_neg (by omega), if_neg (by omega)]

theorem length_consume_lt (hbusy : decoder.state.idle = false) (hinput : decoder.input ≠ []) :
    decoder.consume.input.length < decoder.input.length := by
  have hpos := length_pos_iff.2 hinput
  simp only [VisionState.idle, decide_eq_false_iff_not] at hbusy
  unfold consume
  dsimp only
  split
  · split
    · contradiction
    next hnext => simp [hnext]
  · split
    · rw [length_drop]
      omega
    · split
      · rw [length_drop]
        omega
      · omega

variable {next : VisionDecoder}

theorem work_settle_lt (hinput : decoder.input ≠ [])
    (hsettle : decoder.consume.settle = (next, .ok ())) : next.work < decoder.work := by
  have hpos := length_pos_iff.2 hinput
  unfold settle at hsettle
  dsimp only at hsettle
  cases hidle : decoder.state.idle with
  | true =>
    rw [consume_of_idle hidle] at hsettle
    rw [if_neg (by simp [hidle])] at hsettle
    simp only [work, hidle, if_true]
    split at hsettle
    · cases hsettle
      simp [VisionState.idle]
    · split at hsettle
      · cases hsettle
        simp only [length_nil]
        split <;> omega
      · simp at hsettle
  | false =>
    have hless := length_consume_lt hidle hinput
    have hnext : next.input.length ≤ decoder.consume.input.length := by
      split at hsettle
      · cases hsettle
        exact Nat.le_refl _
      · split at hsettle
        · cases hsettle
          exact Nat.le_refl _
        · split at hsettle
          · cases hsettle
            exact Nat.zero_le _
          · simp at hsettle
    simp only [work, hidle]
    split <;> omega

/-- The loop of `process_buffer`. -/
def processLoop (decoder : VisionDecoder) : VisionDecoder × Except IoError Unit :=
  if _ : decoder.input ≠ [] ∧ decoder.state.plain = false then
    match _ : decoder.consume.settle with
    | (next, .error error) => (next, .error error)
    | (next, .ok ()) => next.processLoop
  else (decoder, .ok ())
termination_by decoder.work
decreasing_by
  rename_i hturn hsettle
  exact work_settle_lt hturn.1 hsettle

/-- The check of the first 21 bytes, once they are there. -/
def checkPrefix (decoder : VisionDecoder) : VisionDecoder :=
  let state := { decoder.state with checkedPrefix := true }
  if decoder.input.take 16 = state.userId.bytes then
    { decoder with
      state := { state with sawVisionPrefix := true, remainingCommand := 5 }
      input := decoder.input.drop 16 }
  else
    { state := { state with plain := true }, input := []
      output := decoder.output ++ decoder.input }

def processBuffer (decoder : VisionDecoder) : VisionDecoder × Except IoError Unit :=
  if decoder.state.plain then
    ({ decoder with input := [], output := decoder.output ++ decoder.input }, .ok ())
  else if decoder.state.checkedPrefix then decoder.processLoop
  else if decoder.input.length < 21 then (decoder, .ok ())
  else decoder.checkPrefix.processLoop

theorem work_processLoop_le (decoder : VisionDecoder)
    (hloop : decoder.processLoop = (next, .ok ())) : next.work ≤ decoder.work := by
  induction decoder using processLoop.induct with
  | case1 decoder hturn after error hsettle =>
    rw [processLoop, dif_pos hturn] at hloop
    split at hloop <;> simp_all
  | case2 decoder hturn after hsettle ih =>
    rw [processLoop, dif_pos hturn] at hloop
    split at hloop
    · simp_all
    next after' hsettle' =>
      rw [hsettle] at hsettle'
      cases hsettle'
      exact (ih hloop).trans (work_settle_lt hturn.1 hsettle).le
  | case3 decoder hturn =>
    rw [processLoop, dif_neg hturn] at hloop
    cases hloop
    exact Nat.le_refl _

theorem length_processBuffer_le (hproc : decoder.processBuffer = (next, .ok ())) :
    next.input.length ≤ decoder.input.length := by
  have hloop : ∀ {start : VisionDecoder}, start.processLoop = (next, .ok ()) →
      next.input.length ≤ start.input.length := by
    intro start hstart
    have hwork := work_processLoop_le start hstart
    unfold work at hwork
    split at hwork <;> split at hwork <;> omega
  unfold processBuffer at hproc
  split at hproc
  · cases hproc
    exact Nat.zero_le _
  · split at hproc
    · exact hloop hproc
    · split at hproc
      · cases hproc
        exact Nat.le_refl _
      · refine (hloop hproc).trans ?_
        unfold checkPrefix
        dsimp only
        split
        · rw [length_drop]
          exact Nat.sub_le _ _
        · exact Nat.zero_le _

/-- `drain_output` of an output that is not empty. -/
def handOut (decoder : VisionDecoder) (source : Source UInt8) (room : Nat) :
    (VisionDecoder × Source UInt8) × Except IoError (List UInt8) :=
  (({ decoder with output := decoder.output.drop room }, source), .ok (decoder.output.take room))

/-- The loop of `VisionReader::read`. -/
def readLoop (decoder : VisionDecoder) (source : Source UInt8) (room : Nat) :
    (VisionDecoder × Source UInt8) × Except IoError (List UInt8) :=
  if decoder.output ≠ [] then decoder.handOut source room
  else
    match _ : decoder.processBuffer with
    | (next, .error error) => ((next, source), .error error)
    | (next, .ok ()) =>
      if next.output ≠ [] then next.handOut source room
      else
        match _ : source.read 8192 with
        | (rest, none) => ((next, rest), .error wouldBlock)
        | (rest, some []) =>
          if next.input ≠ [] then readLoop next.finish rest room
          else ((next, rest), .ok [])
        | (rest, some (first :: tail)) => readLoop (next.push (first :: tail)) rest room
termination_by (source.bytes.length, decoder.input.length)
decreasing_by
  · rename_i hproc _ hread hinput
    obtain ⟨rfl, rfl⟩ := Source.read_end (by omega) hread
    have hless := length_processBuffer_le hproc
    have hpos := List.length_pos_iff.2 hinput
    exact Prod.Lex.right _ (by
      change ([] : List UInt8).length < _
      simp only [List.length_nil]
      omega)
  · rename_i hproc _ hread
    obtain ⟨hbytes, -⟩ := Source.read_some hread
    apply Prod.Lex.left
    rw [← hbytes, List.length_append, List.length_cons]
    omega

def read (reader : VisionDecoder × Source UInt8) (room : Nat) :
    (VisionDecoder × Source UInt8) × Except IoError (List UInt8) :=
  if room = 0 then (reader, .ok []) else reader.1.readLoop reader.2 room

end VisionDecoder

end KeliCore
