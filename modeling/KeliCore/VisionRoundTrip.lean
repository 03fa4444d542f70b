/-
What Vision frames carry.  Over whole frames a decoder hands out what was
written, and it ends in direct copy exactly if the encoder does.  A write that
is too long for its frame goes on behind it without one, which a decoder that
still expects frames cannot tell from a frame.
-/
import KeliCore.VisionDecoding

namespace KeliCore

open VisionDecoder Reading List VisionState

variable (decoder : VisionDecoder)

theorem toNat_toBeBytes (value : UInt16) : (UInt8.ofNat (value.toNat / 256)).toNat <<< 8 |||
      (UInt8.ofNat (value.toNat % 256)).toNat = value.toNat := by
  have hvalue : value.toNat < 65536 := value.toNat_lt
  have hhigh : (UInt8.ofNat (value.toNat / 256)).toNat = value.toNat / 256 := by
    rw [UInt8.toNat_ofNat']
    omega
  have hlow : (UInt8.ofNat (value.toNat % 256)).toNat = value.toNat % 256 := by
    rw [UInt8.toNat_ofNat']
    omega
  rw [hhigh, hlow, ← Nat.shiftLeft_add_eq_or_of_lt (by omega : _ < 2 ^ 8), Nat.shiftLeft_eq]
  omega

/-- A frame behind its user id. -/
def visionFrame (command : UInt8) (content padding : List UInt8) : List UInt8 :=
  command :: toBeBytes (.ofNat content.length) ++
    toBeBytes (.ofNat padding.length) ++ content ++ padding

/-- The decoder expects a frame. -/
structure AtFrame (state : VisionState) : Prop where
  checked : state.checkedPrefix = true
  framed : state.plain = false
  command : state.remainingCommand = 5

section Frame

variable {state : VisionState} {output : List UInt8}

theorem commandByte_remainingCommand (data : UInt8) :
    (state.commandByte data).remainingCommand = state.remainingCommand - 1 := by
  unfold commandByte
  dsimp only
  split <;> rfl

theorem processLoop_command (hplain : state.plain = false)
    (hcmd : 1 < state.remainingCommand) (data : UInt8) (rest : List UInt8) :
    processLoop ⟨state, data :: rest, output⟩ =
      processLoop ⟨state.commandByte data, rest, output⟩ := by
  have hbusy : (state.commandByte data).idle = false := by
    simp only [idle, commandByte_remainingCommand, decide_eq_false_iff_not]
    omega
  rw [processLoop_turn (by simp) hplain, consume_command (by omega), settle_of_busy hbusy]
  rfl

theorem commandByte_five (userId : VisionUserId) (checked saw plain : Bool) (content padding : Int)
    (current command contentHigh contentLow paddingHigh paddingLow : UInt8) :
    (((((mk userId checked saw plain 5 content padding
      current).commandByte command).commandByte contentHigh).commandByte
      contentLow).commandByte paddingHigh).commandByte paddingLow = ⟨userId, checked, saw, plain, 0,
        (contentHigh.toNat <<< 8 ||| contentLow.toNat : Nat),
        (paddingHigh.toNat <<< 8 ||| paddingLow.toNat : Nat), command⟩ :=
  rfl

theorem processLoop_header (hframe : AtFrame state) (command : UInt8)
    (contentLen paddingLen : UInt16) (rest : List UInt8) :
    processLoop ⟨state, command :: toBeBytes contentLen ++ toBeBytes paddingLen ++ rest, output⟩ =
      proceed (settle ⟨{ state with
        remainingCommand := 0, remainingContent := contentLen.toNat
        remainingPadding := paddingLen.toNat, currentCommand := command },
        rest, output⟩) := by
  obtain ⟨userId, checked, saw, plain, remaining, content, padding, current⟩ := state
  obtain ⟨-, hplain, hcmd⟩ := hframe
  dsimp only at hplain hcmd
  subst hplain hcmd
  simp only [toBeBytes, cons_append, nil_append]
  rw [processLoop_command rfl (by simp),
    processLoop_command rfl (by simp [commandByte_remainingCommand]),
    processLoop_command rfl (by simp [commandByte_remainingCommand]),
    processLoop_command rfl (by simp [commandByte_remainingCommand]),
    processLoop_turn (by simp) rfl, consume_command (by simp [commandByte_remainingCommand])]
  rw [commandByte_five, toNat_toBeBytes, toNat_toBeBytes]

variable {content padding : List UInt8}

theorem proceed_content (hplain : state.plain = false) (hcmd : state.remainingCommand = 0)
    (hcontent : state.remainingContent = content.length) (rest : List UInt8) :
    proceed (settle ⟨state, content ++ rest, output⟩) =
      proceed (settle ⟨{ state with remainingContent := 0 }, rest, output ++ content⟩) := by
  by_cases hempty : content = []
  · subst hempty
    obtain ⟨userId, checked, saw, plain, remaining, contents, padding, current⟩ := state
    dsimp only at hcontent
    subst hcontent
    simp
  · have hpos := length_pos_iff.2 hempty
    have hbusy : state.idle = false := not_idle (by omega)
    have hlen : min state.remainingContent.toNat (content ++ rest).length = content.length := by
      rw [length_append]
      omega
    rw [settle_of_busy hbusy]
    change processLoop _ = _
    rw [processLoop_turn (by simp [hempty]) hplain,
      consume_content (by omega) (by omega) hlen, drop_left, take_left, hcontent, Int.sub_self]

theorem proceed_padding (hplain : state.plain = false) (hcmd : state.remainingCommand = 0)
    (hcontent : state.remainingContent = 0)
    (hpadding : state.remainingPadding = padding.length) (rest : List UInt8) :
    proceed (settle ⟨state, padding ++ rest, output⟩) =
      proceed (settle ⟨{ state with remainingPadding := 0 }, rest, output⟩) := by
  by_cases hempty : padding = []
  · subst hempty
    obtain ⟨userId, checked, saw, plain, remaining, content, paddings, current⟩ := state
    dsimp only at hpadding
    subst hpadding
    simp
  · have hpos := length_pos_iff.2 hempty
    have hbusy : state.idle = false := not_idle (by omega)
    have hlen : min state.remainingPadding.toNat (padding ++ rest).length = padding.length := by
      rw [length_append]
      omega
    rw [settle_of_busy hbusy]
    change processLoop _ = _
    rw [processLoop_turn (by simp [hempty]) hplain,
      consume_padding (by omega) (by omega) (by omega) hlen, drop_left, hpadding, Int.sub_self]

theorem processLoop_frame (hframe : AtFrame state) (command : UInt8)
    (hcontent : content.length ≤ 65535) (hpadding : padding.length ≤ 65535) (rest : List UInt8) :
    processLoop ⟨state, visionFrame command content padding ++ rest, output⟩ =
      proceed (settle ⟨{ state with
        remainingCommand := 0, remainingContent := 0, remainingPadding := 0
        currentCommand := command }, rest, output ++ content⟩) := by
  have hcontentLen : (UInt16.ofNat content.length).toNat = content.length := by
    rw [UInt16.toNat_ofNat']
    omega
  have hpaddingLen : (UInt16.ofNat padding.length).toNat = padding.length := by
    rw [UInt16.toNat_ofNat']
    omega
  have hbytes : visionFrame command content padding ++ rest =
      command :: toBeBytes (.ofNat content.length) ++
        toBeBytes (.ofNat padding.length) ++ (content ++ (padding ++ rest)) := by simp [visionFrame]
  rw [hbytes, processLoop_header hframe, hcontentLen, hpaddingLen]
  refine (proceed_content ?_ rfl rfl _).trans (proceed_padding ?_ rfl rfl rfl _)
  · exact hframe.framed
  · exact hframe.framed

theorem decodeAll_continue (hframe : AtFrame state)
    {content padding : List UInt8} (hcontent : content.length ≤ 65535)
    (hpadding : padding.length ≤ 65535) : ∃ next, AtFrame next ∧ ∀ rest,
      decodeAll ⟨state, visionFrame commandPaddingContinue content padding ++
        rest, output⟩ = decodeAll ⟨next, rest, output ++ content⟩ := by
  let next : VisionState := { state with
      remainingCommand := 5, remainingContent := 0, remainingPadding := 0
      currentCommand := commandPaddingContinue }
  have hnext : AtFrame next := ⟨hframe.checked, hframe.framed, rfl⟩
  refine ⟨next, hnext, fun rest => ?_⟩
  rw [decodeAll, decodeAll, processBuffer_checked hframe.framed hframe.checked,
    processBuffer_checked hnext.framed hnext.checked, processLoop_frame hframe _ hcontent hpadding]
  rfl

/-- After any other frame of the encoder everything is passed through. -/
theorem decodeAll_last (hframe : AtFrame state) {command : UInt8}
    (hcmd : command = commandPaddingEnd ∨ command = commandPaddingDirect)
    {content padding : List UInt8} (hcontent : content.length ≤ 65535)
    (hpadding : padding.length ≤ 65535) :
    ∃ next, next.plain = true ∧ next.currentCommand = command ∧ ∀ rest,
      decodeAll ⟨state, visionFrame command content padding ++ rest, output⟩ =
        .ok (next, output ++ content ++ rest) := by
  let next : VisionState := { state with
      remainingCommand := -1, remainingContent := -1, remainingPadding := -1
      plain := true, currentCommand := command }
  refine ⟨next, rfl, rfl, fun rest => ?_⟩
  have hsettle : settle ⟨{ state with
      remainingCommand := 0, remainingContent := 0, remainingPadding := 0
      currentCommand := command }, rest, output ++ content⟩ =
      (⟨next, [], output ++ content ++ rest⟩, .ok ()) := by rcases hcmd with rfl | rfl <;> rfl
  have hloop : processLoop ⟨state, visionFrame command content padding ++ rest, output⟩ =
      (⟨next, [], output ++ content ++ rest⟩, .ok ()) := by
    rw [processLoop_frame hframe _ hcontent hpadding, hsettle]
    exact processLoop_done (.inl rfl)
  have hproc := @processBuffer_checked ⟨state,
    visionFrame command content padding ++ rest, output⟩ hframe.framed hframe.checked
  rw [decodeAll_ok (hproc.trans hloop), append_nil]

end Frame

theorem length_visionFrame (command : UInt8) (content padding : List UInt8) :
    (visionFrame command content padding).length = 5 + content.length + padding.length := by
  simp only [visionFrame, toBeBytes, length_append, length_cons, length_nil]

theorem decodeAll_userId (userId : VisionUserId) :
    ∃ state, AtFrame state ∧ ∀ bytes : List UInt8, 5 ≤ bytes.length →
      ((VisionDecoder.new userId).push (userId.bytes ++ bytes)).decodeAll =
        decodeAll ⟨state, bytes, []⟩ := by
  let state : VisionState :=
    { userId := userId, checkedPrefix := true, sawVisionPrefix := true
      remainingCommand := 5 }
  refine ⟨state, ⟨rfl, rfl, rfl⟩, fun bytes hlen => ?_⟩
  have hlong : ¬ ((new userId).push (userId.bytes ++ bytes)).input.length < 21 := by
    change ¬ (userId.bytes ++ bytes).length < 21
    rw [length_append, userId.length_bytes]
    omega
  have hcheck : ((new userId).push (userId.bytes ++ bytes)).checkPrefix = ⟨state, bytes, []⟩ := by
    simp [checkPrefix, push, new, state, ← userId.length_bytes]
  rw [decodeAll_check rfl rfl hlong, hcheck]

/-- The bytes a decoder holds. -/
def held (decoder : VisionDecoder) : Nat :=
  decoder.output.length + decoder.input.length

theorem held_consume_le : held decoder.consume ≤ held decoder := by
  unfold held consume
  dsimp only
  repeat' split
  all_goals simp_all

theorem held_settle : held decoder.settle.1 = held decoder := by
  unfold held settle
  dsimp only
  repeat' split
  all_goals simp

theorem held_processLoop_le : held decoder.processLoop.1 ≤ held decoder := by
  refine @processLoop_keeps (fun next => held next ≤ held decoder) _ (fun next hkept => ?_) le_rfl
  rw [held_settle]
  exact (held_consume_le next).trans hkept

variable {input : List UInt8}

/-- Bytes that are not a frame where one is expected do not all come out. -/
theorem length_decodeAll_lt {state final : VisionState} (hframe : AtFrame state)
    {output all : List UInt8} (hinput : input ≠ [])
    (hall : decodeAll ⟨state, input, output⟩ = .ok (final, all)) :
    all.length < output.length + input.length := by
  obtain ⟨first, rest, rfl⟩ := exists_cons_of_ne_nil hinput
  have hcmd : 1 < state.remainingCommand := by
    rw [hframe.command]
    decide
  have hloop := @processBuffer_checked ⟨state, first :: rest, output⟩ hframe.framed hframe.checked
  rw [processLoop_command hframe.framed hcmd] at hloop
  have hheld := held_processLoop_le ⟨state.commandByte first, rest, output⟩
  rw [decodeAll, hloop] at hall
  generalize processLoop ⟨state.commandByte first, rest, output⟩ = result at hall hheld
  obtain ⟨next, outcome⟩ := result
  cases outcome with
  | error error => simp at hall
  | ok value =>
    cases hall
    simp only [held] at hheld
    rw [length_append, length_cons]
    omega

/-- However the bytes of the encoder arrive and are read, the decoder hands out
what was written, and at the end it is in direct copy exactly if the encoder
is. -/
def RoundTrip (userId : VisionUserId) (run : VisionRun) : Prop :=
  ∀ source : Source UInt8, source.bytes = run.wire → ∀ rooms : List Nat,
    let session := Run.exec (pull VisionDecoder.read IoError.isWouldBlock)
      { reader := (.new userId, source) } rooms
    Complete session run.content
      (run.content.length + source.blocks < rooms.length) ∧
    (session.ended = true → session.reader.1.isDirectCopy = run.encoder.directCopy)

theorem roundTrip_iff (userId : VisionUserId) (run : VisionRun) : RoundTrip userId run ↔
      ∃ state : VisionState, ((VisionDecoder.new userId).push run.wire).decodeAll =
          .ok (state, run.content) ∧ (state.currentCommand == commandPaddingDirect && state.plain) =
          run.encoder.directCopy := by
  have hdecodes : ∀ (source : Source UInt8), source.bytes = run.wire →
      ∀ rooms, Decodes ((new userId).push run.wire).decodeAll
        (Run.exec (pull read IoError.isWouldBlock) { reader := (.new userId, source) } rooms) := by
    intro source hbytes rooms
    rw [← hbytes]
    exact Run.exec_always (fun session room h => h.pull room) (decodes_start _ _) rooms
  constructor
  · intro htrip
    let source : Source UInt8 := .putBack run.wire []
    have hbytes : source.bytes = run.wire := by simp [source, Source.bytes]
    have hblocks : source.blocks = 0 := by simp [source, Source.blocks]
    let rooms := replicate (run.content.length + 1) 0
    obtain ⟨hcomplete, hdir⟩ := htrip source hbytes rooms
    have hended := hcomplete.ends (by simp [rooms, hblocks])
    obtain ⟨-, -, hall⟩ := (hdecodes source hbytes rooms).ended hended
    rw [hcomplete.whole hended] at hall
    exact ⟨_, hall, hdir hended⟩
  · rintro ⟨state, hall, hdir⟩ source hbytes rooms
    have howes : Owes state (new userId, source) run.content
        source.blocks := ⟨by rw [hbytes]; exact hall, Nat.le_refl _⟩
    refine ⟨(delivers state).complete howes rooms, fun hended => ?_⟩
    obtain ⟨-, -, hend⟩ := (hdecodes source hbytes rooms).ended hended
    rw [hall] at hend
    simp only [Except.ok.injEq, Prod.mk.injEq] at hend
    rw [isDirectCopy, ← hend.1]
    exact hdir

theorem length_randomPadding (draw : PaddingDraw) (length : Nat) :
    (VisionEncoder.randomPadding draw length).length = length := by
  simp [VisionEncoder.randomPadding]

theorem paddingLen_le (word : UInt16) (contentLen : Nat) (longPadding : Bool) :
    VisionEncoder.paddingLen word contentLen longPadding ≤ 65535 :=
  (Nat.min_le_right _ _).trans (Nat.sub_le _ _)

theorem commandFor_cases (encoder : VisionEncoder) (payload : List UInt8) :
    let next := encoder.commandFor payload
    (next.command = commandPaddingContinue ∧ next.keepPadding = true ∧
        next.switchToDirect = false) ∨
      ((next.command = commandPaddingEnd ∨ next.command = commandPaddingDirect) ∧
        next.keepPadding = false ∧
        next.switchToDirect = (next.command == commandPaddingDirect)) := by
  unfold VisionEncoder.commandFor VisionEncoder.nextCommand
  dsimp only
  repeat' split
  all_goals simp [commandPaddingDirect, commandPaddingEnd]

/-- The encoder is at the end of a frame, or before the first: a decoder that
has everything so far has handed out everything written, and expects the next
frame. -/
structure Framing (userId : VisionUserId) (run : VisionRun) : Prop where
  active : run.encoder.paddingActive = true
  indirect : run.encoder.directCopy = false
  so_far : ∃ state : VisionState, state.plain = false ∧
    ((VisionDecoder.new userId).push run.wire).decodeAll = .ok (state, run.content)
  next : ∃ state, AtFrame state ∧ ∀ command content padding rest,
    ((VisionDecoder.new userId).push (run.wire ++
      (run.encoder.frame command content padding ++ rest))).decodeAll =
      decodeAll ⟨state, visionFrame command content padding ++ rest, run.content⟩

/-- Framing has ended on both sides. -/
structure Passing (userId : VisionUserId) (run : VisionRun) : Prop where
  inactive : run.encoder.paddingActive = false
  next : ∃ state : VisionState, (state.currentCommand == commandPaddingDirect && state.plain) =
      run.encoder.directCopy ∧
    ∀ rest, ((VisionDecoder.new userId).push (run.wire ++ rest)).decodeAll =
      .ok (state, run.content ++ rest)

theorem framing_new (userId : VisionUserId) : Framing userId { encoder := .new userId } where
  active := rfl
  indirect := rfl
  so_far := ⟨_, rfl, decodeAll_empty rfl⟩
  next := by
    obtain ⟨state, hframe, hfirst⟩ := decodeAll_userId userId
    refine ⟨state, hframe, fun command content padding rest => ?_⟩
    have hbytes : (VisionEncoder.new userId).frame command content padding ++ rest = userId.bytes ++
          (visionFrame command content padding ++ rest) := by
      simp [VisionEncoder.frame, VisionEncoder.new, visionFrame]
    have hlen : 5 ≤ (visionFrame command content padding ++ rest).length := by
      rw [length_append, length_visionFrame]
      omega
    rw [nil_append, hbytes, hfirst _ hlen]

section Step

variable {userId : VisionUserId} {run : VisionRun}

theorem Framing.roundTrip (hframing : Framing userId run) : RoundTrip userId run := by
  obtain ⟨state, hplain, hall⟩ := hframing.so_far
  refine (roundTrip_iff userId run).2 ⟨state, hall, ?_⟩
  rw [hplain, hframing.indirect, Bool.and_false]

theorem Passing.roundTrip (hpassing : Passing userId run) : RoundTrip userId run := by
  obtain ⟨state, hdir, hall⟩ := hpassing.next
  refine (roundTrip_iff userId run).2 ⟨state, ?_, hdir⟩
  have hnow := hall []
  rw [append_nil, append_nil] at hnow
  exact hnow

theorem Framing.continue {run : VisionRun} (hframing : Framing userId run)
    {encoder : VisionEncoder} (huser : encoder.userId = none)
    (hactive : encoder.paddingActive = true)
    (hind : encoder.directCopy = false) {content padding : List UInt8}
    (hcontent : content.length ≤ 65535) (hpadding : padding.length ≤ 65535) : Framing userId
      { encoder
        wire := run.wire ++ run.encoder.frame commandPaddingContinue content padding
        content := run.content ++ content } := by
  obtain ⟨state, hframe, hnext⟩ := hframing.next
  obtain ⟨after, hafter, hdecode⟩ := @decodeAll_continue _ run.content hframe _ _ hcontent hpadding
  have hall : ∀ rest, ((new userId).push (run.wire ++
      run.encoder.frame commandPaddingContinue content padding ++ rest)).decodeAll =
      decodeAll ⟨after, rest, run.content ++ content⟩ := by
    intro rest
    rw [append_assoc, hnext, hdecode]
  refine ⟨hactive, hind, ⟨after, hafter.framed, ?_⟩, after, hafter, ?_⟩
  · have hnow := hall []
    rw [append_nil] at hnow
    exact hnow.trans (decodeAll_empty rfl)
  · intro command more filler rest
    rw [hall]
    simp [VisionEncoder.frame, visionFrame, huser]

theorem Framing.last {run : VisionRun} (hframing : Framing userId run)
    {encoder : VisionEncoder} (hinactive : encoder.paddingActive = false) {command : UInt8}
    (hcmd : command = commandPaddingEnd ∨ command = commandPaddingDirect)
    (hdir : encoder.directCopy = (command == commandPaddingDirect))
    {content padding : List UInt8} (hcontent : content.length ≤ 65535)
    (hpadding : padding.length ≤ 65535) (rest : List UInt8) : Passing userId
      { encoder
        wire := run.wire ++ (run.encoder.frame command content padding ++ rest)
        content := run.content ++ (content ++ rest) } := by
  obtain ⟨state, hframe, hnext⟩ := hframing.next
  obtain ⟨after, hplain, hcurrent, hdecode⟩ :=
    @decodeAll_last _ run.content hframe _ hcmd _ _ hcontent hpadding
  refine ⟨hinactive, after, ?_, fun more => ?_⟩
  · rw [hplain, hcurrent, hdir, Bool.and_true]
  · dsimp only
    rw [append_assoc, append_assoc, hnext, hdecode]
    simp

theorem Passing.more (hpassing : Passing userId run) (rest : List UInt8) :
    Passing userId { run with wire := run.wire ++ rest, content := run.content ++ rest } := by
  obtain ⟨state, hdir, hall⟩ := hpassing.next
  refine ⟨hpassing.inactive, state, hdir, fun more => ?_⟩
  dsimp only
  rw [append_assoc, hall, append_assoc]

/-- The step does not put bytes without a frame where the decoder expects one:
a write that does not fit into one frame is not cut while framing goes on. -/
def WholeFrames (run : VisionRun) : VisionOp → Prop
  | .write input _ => ¬ (run.encoder.paddingActive = true ∧ 65535 < input.length ∧
      (run.encoder.commandFor (input.take 65535)).command = commandPaddingContinue)
  | .emptyPadding _ => True
  | .finishPadding => True

theorem encode_active {encoder : VisionEncoder} (hactive : encoder.paddingActive = true)
    (hinput : input ≠ []) (draw : PaddingDraw) :
    let command := encoder.commandFor (input.take 65535)
    ∃ padding : List UInt8, padding.length ≤ 65535 ∧ encoder.encode input draw =
        ({ encoder.filterTls (input.take 65535) with
            userId := none
            paddingActive := command.keepPadding
            directCopy := command.switchToDirect },
          encoder.frame command.command (input.take 65535) padding ++ input.drop 65535) := by
  refine ⟨VisionEncoder.randomPadding draw (VisionEncoder.paddingLen draw.word
    (input.take 65535).length (encoder.commandFor (input.take 65535)).longPadding), ?_, ?_⟩
  · rw [length_randomPadding]
    exact paddingLen_le _ _ _
  · rw [VisionEncoder.encode, if_neg (by simp [hactive, hinput])]

theorem Framing.write (hframing : Framing userId run) (input : List UInt8)
    (draw : PaddingDraw) (hwhole : WholeFrames run (.write input draw)) :
    Framing userId (run.step (.write input draw)) ∨
      Passing userId (run.step (.write input draw)) := by
  by_cases hinput : input = []
  · left
    simpa [VisionRun.step, VisionEncoder.encode, hinput] using hframing
  · obtain ⟨padding, hpadding, hencode⟩ := encode_active hframing.active hinput draw
    have hcontent : (input.take 65535).length ≤ 65535 := length_take_le _ _
    have hsplit : run.content ++ (input.take 65535 ++ input.drop 65535) = run.content ++ input := by
      rw [take_append_drop]
    rw [VisionRun.step, hencode, ← hsplit]
    rcases commandFor_cases run.encoder (input.take 65535) with
      ⟨hcmd, hkeep, hdir⟩ | ⟨hcmd, hkeep, hdir⟩
    · left
      have hshort : input.length ≤ 65535 := by
        by_contra hlong
        exact hwhole ⟨hframing.active, by omega, hcmd⟩
      rw [hcmd, drop_eq_nil_of_le hshort, append_nil, append_nil]
      exact hframing.continue rfl hkeep hdir hcontent hpadding
    · right
      exact hframing.last hkeep hcmd hdir hcontent hpadding _

theorem Framing.write_cut (hframing : Framing userId run) {draw : PaddingDraw}
    (hcut : ¬ WholeFrames run (.write input draw)) :
    ¬ RoundTrip userId (run.step (.write input draw)) := by
  obtain ⟨hactive, hlong, hcmd⟩ := not_not.1 hcut
  have hinput : input ≠ [] := by
    rintro rfl
    simp at hlong
  have hrest : input.drop 65535 ≠ [] := by
    rw [Ne, drop_eq_nil_iff]
    omega
  have hcontent : (input.take 65535).length ≤ 65535 := length_take_le _ _
  obtain ⟨padding, hpadding, hencode⟩ := encode_active hactive hinput draw
  obtain ⟨state, hframe, hnext⟩ := hframing.next
  obtain ⟨after, hafter, hdecode⟩ := @decodeAll_continue _ run.content hframe _ _ hcontent hpadding
  rw [roundTrip_iff, VisionRun.step, hencode]
  rintro ⟨final, hall, -⟩
  rw [hcmd, hnext, hdecode] at hall
  have hless := length_decodeAll_lt hafter hrest hall
  simp only [length_append, length_take, length_drop] at hless
  omega

theorem Framing.emptyPadding (hframing : Framing userId run) (draw : PaddingDraw) :
    Framing userId (run.step (.emptyPadding draw)) := by
  have hpadding : (VisionEncoder.randomPadding draw
      (VisionEncoder.paddingLen draw.word 0 true)).length ≤ 65535 := by
    rw [length_randomPadding]
    exact paddingLen_le _ _ _
  have hnext := @Framing.continue userId run hframing
    { run.encoder with userId := none } rfl hframing.active hframing.indirect
    [] _ (by simp) hpadding
  rw [append_nil] at hnext
  rw [VisionRun.step, VisionEncoder.emptyLongPaddingFrame, if_neg (by simp [hframing.active])]
  exact hnext

theorem Framing.finishPadding (hframing : Framing userId run) :
    Passing userId (run.step .finishPadding) := by
  have hnext := @Framing.last userId run hframing
    { run.encoder with userId := none, paddingActive := false } rfl
    commandPaddingEnd (.inl rfl) hframing.indirect [] [] (by simp) (by simp) []
  rw [append_nil, append_nil, append_nil] at hnext
  rw [VisionRun.step, VisionEncoder.finishPadding, if_neg (by simp [hframing.active])]
  exact hnext

theorem Passing.step (hpassing : Passing userId run) (op : VisionOp) :
    Passing userId (run.step op) := by
  have hinactive := hpassing.inactive
  cases op with
  | write input draw =>
    rw [VisionRun.step, VisionEncoder.encode, if_pos (by simp [hinactive])]
    exact hpassing.more input
  | emptyPadding draw =>
    rw [VisionRun.step, VisionEncoder.emptyLongPaddingFrame, if_pos (by simp [hinactive])]
    simpa using hpassing
  | finishPadding =>
    rw [VisionRun.step, VisionEncoder.finishPadding, if_pos (by simp [hinactive])]
    simpa using hpassing

end Step

/-- The runs of an encoder whose bytes decode to what was written, up to each
of their steps, are those that never cut a write behind a frame after which
framing goes on. -/
theorem vision_round_trip_iff (userId : VisionUserId) (ops : List VisionOp) :
    Run.Meets VisionRun.step WholeFrames { encoder := .new userId } ops ↔
      ∀ past, past <+: ops → RoundTrip userId
        (Run.exec VisionRun.step { encoder := .new userId } past) := by
  refine @Run.meets_iff_always _ _ _ _
    (fun run => Framing userId run ∨ Passing userId run) _ ?_ ?_ ?_ _ ?_ ops
  · rintro run (hframing | hpassing)
    · exact hframing.roundTrip
    · exact hpassing.roundTrip
  · rintro run op (hframing | hpassing) hwhole
    · cases op with
      | write input draw => exact hframing.write input draw hwhole
      | emptyPadding draw => exact .inl (hframing.emptyPadding draw)
      | finishPadding => exact .inr hframing.finishPadding
    · exact .inr (hpassing.step op)
  · rintro run op (hframing | hpassing) hcut
    · cases op with
      | write input draw => exact hframing.write_cut hcut
      | emptyPadding draw | finishPadding => exact absurd trivial hcut
    · cases op with
      | write input draw =>
        obtain ⟨hactive, -⟩ := not_not.1 hcut
        rw [hpassing.inactive] at hactive
        simp at hactive
      | emptyPadding draw | finishPadding => exact absurd trivial hcut
  · exact .inl (framing_new userId)

/-- One write of 65536 bytes: the last of them stands where the decoder expects
a frame. -/
theorem cut_write_is_lost : ¬ RoundTrip ⟨List.replicate 16 0, rfl⟩
      (VisionRun.step { encoder := .new ⟨List.replicate 16 0, rfl⟩ }
        (.write (List.replicate 65536 0x41) ⟨0, fun _ => 0⟩)) := by
  apply (framing_new _).write_cut
  apply not_not.2
  refine ⟨rfl, ?_, by decide +kernel⟩
  rw [length_replicate]
  omega

end KeliCore
