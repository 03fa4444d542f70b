/-
Unpadding the upload of a Vision connection.  A relay gives its decoder what it
reads through TLS and takes out what the decoder has, one buffer at a time, up
to the switch or the end.
-/
import KeliCore.VisionClients
import KeliCore.VisionRelay

namespace KeliCore

open VisionDecoder List
open VisionDecoder (new push)

/-- The upload before the switch: the decoder has been given `read`, and what
it makes of it beyond `sent` is still in it. -/
structure Unpadding (userId : VisionUserId) (read : List UInt8)
    (decoder : VisionDecoder) (sent : List UInt8) : Prop where
  later : ∀ more, ((VisionDecoder.new userId).push (read ++ more)).decodeAll =
    (decoder.push more).decodeAll.map fun (state, out) => (state, sent ++ out)
  indirect : decoder.isDirectCopy = false
  fits : decoder.state.checkedPrefix = true → decoder.state.plain = false →
    held decoder ≤ visionBuffer
  unchecked : decoder.state.checkedPrefix = false →
    decoder = (VisionDecoder.new userId).push read ∧ sent = [] ∧ read.length ≤ visionBuffer + 20
  checked : decoder.state.checkedPrefix = true → 21 ≤ read.length

/-- The decoder has nothing to hand out until it is given more. -/
structure SettledDecoder (decoder : VisionDecoder) : Prop where
  output : decoder.output = []
  checked : decoder.state.checkedPrefix = true → decoder.input = []
  unchecked : decoder.state.checkedPrefix = false → decoder.input.length < 21

variable {userId : VisionUserId} {decoder : VisionDecoder}

section Unpadding

variable {read sent : List UInt8}

theorem Unpadding.push {piece : List UInt8} (hpad : Unpadding userId read decoder sent)
    (hset : SettledDecoder decoder) (hpiece : piece.length ≤ visionBuffer) :
    Unpadding userId (read ++ piece) (decoder.push piece) sent where
  later more := by rw [append_assoc, hpad.later, push_push]
  indirect := hpad.indirect
  fits hchecked _ := by
    have hinput := hset.checked hchecked
    simp only [held, VisionDecoder.push, hinput, hset.output,
      nil_append, length_nil, Nat.zero_add]
    exact hpiece
  unchecked hchecked := by
    obtain ⟨hdecoder, hsent, -⟩ := hpad.unchecked hchecked
    have hshort := hset.unchecked hchecked
    rw [hdecoder] at hshort
    change read.length < 21 at hshort
    refine ⟨?_, hsent, ?_⟩
    · rw [hdecoder, push_push]
    · rw [length_append]
      omega
  checked hchecked := by
    rw [length_append]
    exact (hpad.checked hchecked).trans (Nat.le_add_right _ _)

theorem Unpadding.later_handOut {processed : VisionDecoder}
    (hpad : Unpadding userId read decoder sent)
    (hproc : decoder.processBuffer = (processed, .ok ())) (room : Nat) (more : List UInt8) :
    ((VisionDecoder.new userId).push (read ++ more)).decodeAll =
      (VisionDecoder.push { processed with output := processed.output.drop room }
        more).decodeAll.map fun (state, out) =>
          (state, (sent ++ processed.output.take room) ++ out) := by
  have hsplit : processed.push more =
      (VisionDecoder.push { processed with output := processed.output.drop room }
        more).prepend (processed.output.take room) := by simp [VisionDecoder.push, prepend]
  rw [hpad.later, processBuffer_push hproc, hsplit, decodeAll_prepend]
  cases (VisionDecoder.push
    { processed with output := processed.output.drop room } more).decodeAll with
  | error error => rfl
  | ok all => simp [Except.map]

/-- Four bytes at least of the first command are not handed out. -/
theorem held_processLoop_frame_le {state : VisionState} (hframe : AtFrame state)
    {input : List UInt8} (hinput : 4 ≤ input.length) :
    held (processLoop ⟨state, input, []⟩).1 + 4 ≤ input.length := by
  match input, hinput with
  | command :: contentHigh :: contentLow :: paddingHigh :: rest, _ =>
    have hcmd := hframe.command
    have hheld := held_processLoop_le ⟨(((state.commandByte
      command).commandByte contentHigh).commandByte contentLow).commandByte paddingHigh, rest, []⟩
    have hplain := hframe.framed
    rw [processLoop_command hplain (by omega),
      processLoop_command (by simp only [commandByte_plain, hplain])
        (by simp only [commandByte_remainingCommand]; omega),
      processLoop_command (by simp only [commandByte_plain, hplain])
        (by simp only [commandByte_remainingCommand]; omega),
      processLoop_command (by simp only [commandByte_plain, hplain])
        (by simp only [commandByte_remainingCommand]; omega)]
    simp only [held, length_nil, length_cons] at hheld ⊢
    omega

/-- What a decoder holds once it has found out whether there are frames. -/
structure Processed (decoder : VisionDecoder) : Prop where
  input : decoder.input = []
  fits : decoder.isDirectCopy = true ∨ decoder.state.plain = false →
    decoder.output.length ≤ visionBuffer

theorem processed_of_held (hinput : decoder.input = [])
    (hheld : held decoder ≤ visionBuffer) : Processed decoder := by
  refine ⟨hinput, fun _ => ?_⟩
  rw [held] at hheld
  omega

theorem processed_checkPrefix {processed : VisionDecoder} (hlong : 21 ≤ read.length)
    (hread : read.length ≤ visionBuffer + 20)
    (hproc : ((new userId).push read).checkPrefix.processLoop =
      (processed, .ok ())) : Processed processed := by
  rw [checkPrefix] at hproc
  dsimp only at hproc
  split at hproc
  · have hempty := ((processLoop_push _ rfl []).1 _ hproc).1
    let framed : VisionState :=
      { userId := userId, checkedPrefix := true, sawVisionPrefix := true
        remainingCommand := 5 }
    have hheld := @held_processLoop_frame_le framed ⟨rfl, rfl, rfl⟩
      (read.drop 16) (by rw [length_drop]; omega)
    change processLoop ⟨framed, read.drop 16, []⟩ = _ at hproc
    rw [hproc, length_drop] at hheld
    exact processed_of_held hempty (by dsimp only at hheld; omega)
  · rw [processLoop_done (.inl rfl)] at hproc
    cases hproc
    refine ⟨rfl, ?_⟩
    rintro (hdir | hframed)
    · exact absurd hdir (by simp [isDirectCopy, push,
        new, commandPaddingContinue, commandPaddingDirect])
    · exact absurd hframed Bool.noConfusion

theorem Unpadding.processed (hpad : Unpadding userId read decoder sent)
    {processed : VisionDecoder} (hproc : decoder.processBuffer = (processed, .ok ())) :
    (processed = decoder ∧ SettledDecoder decoder ∧ decoder.state.checkedPrefix = false) ∨
      (processed.state.checkedPrefix = true ∧ 21 ≤ read.length ∧ Processed processed) := by
  cases hchecked : decoder.state.checkedPrefix with
  | true =>
    right
    have hlong := hpad.checked hchecked
    cases hplain : decoder.state.plain with
    | true =>
      rw [processBuffer, if_pos hplain] at hproc
      cases hproc
      refine ⟨hchecked, hlong, rfl, ?_⟩
      rintro (hdir | hframed)
      · exact absurd (hpad.indirect.symm.trans hdir) (by decide)
      · exact absurd (hplain.symm.trans hframed) (by decide)
    | false =>
      rw [processBuffer_checked hplain hchecked] at hproc
      have hkept := processLoop_checkedPrefix decoder
      have hheld := held_processLoop_le decoder
      rw [hproc] at hkept hheld
      have hempty := ((processLoop_push decoder hplain []).1 _ hproc).1
      exact ⟨hkept.trans hchecked, hlong, processed_of_held hempty
        (hheld.trans (hpad.fits hchecked hplain))⟩
  | false =>
    obtain ⟨rfl, -, hread⟩ := hpad.unchecked hchecked
    by_cases hshort : read.length < 21
    · left
      rw [processBuffer_short userId hshort] at hproc
      refine ⟨(Prod.mk.inj hproc).1.symm, ⟨rfl, ?_, fun _ => hshort⟩, rfl⟩
      intro hnow
      exact absurd (hchecked.symm.trans hnow) (by decide)
    · right
      rw [processBuffer_check rfl rfl hshort] at hproc
      have hkept := processLoop_checkedPrefix ((new userId).push read).checkPrefix
      rw [checkPrefix_checkedPrefix, hproc] at hkept
      exact ⟨hkept, Nat.le_of_not_lt hshort,
        processed_checkPrefix (Nat.le_of_not_lt hshort) hread hproc⟩

/-- One call of `read_decoded`: it hands out the next piece.  If that is the
last one before the switch, nothing stays in the decoder. -/
theorem Unpadding.readDecoded (hpad : Unpadding userId read decoder sent)
    {left : List UInt8} {all : VisionState × List UInt8}
    (hdecodes : ((VisionDecoder.new userId).push (read ++ left)).decodeAll = .ok all) :
    ∃ next piece, decoder.readDecoded visionBuffer = (next, .ok piece) ∧
      (next.isDirectCopy = true → 21 ≤ read.length ∧
        ((VisionDecoder.new userId).push read).decodeAll = .ok (next.state, sent ++ piece)) ∧
      (next.isDirectCopy = false → Unpadding userId read next (sent ++ piece) ∧
          (piece = [] → SettledDecoder next)) := by
  obtain ⟨⟨processed, result⟩, hproc⟩ : ∃ result, decoder.processBuffer = result := ⟨_, rfl⟩
  cases result with
  | error error =>
    rw [hpad.later, processBuffer_push_error (congrArg Prod.snd hproc)] at hdecodes
    simp [Except.map] at hdecodes
  | ok value =>
    have hlater := hpad.later_handOut hproc visionBuffer
    refine ⟨{ processed with output := processed.output.drop visionBuffer },
      processed.output.take visionBuffer, by rw [VisionDecoder.readDecoded, hproc], ?_, ?_⟩
    · intro hdir
      rcases hpad.processed hproc with ⟨rfl, -, -⟩ | ⟨hchecked, hlong, hprocessed⟩
      · exact absurd (hpad.indirect.symm.trans hdir) (by decide)
      · have hnone : processed.output.drop visionBuffer = [] :=
          drop_eq_nil_of_le (hprocessed.fits (.inl hdir))
        have hempty : (VisionDecoder.push { processed with output := [] }
            []).decodeAll = .ok (processed.state, []) :=
          decodeAll_empty (by simp [VisionDecoder.push, hprocessed.input])
        have hnow := hlater []
        rw [append_nil, hnone, hempty] at hnow
        refine ⟨hlong, ?_⟩
        rw [hnow, Except.map]
        dsimp only
        rw [append_nil]
    · intro hind
      rcases hpad.processed hproc with
        ⟨rfl, hset, hchecked⟩ | ⟨hchecked, hlong, hprocessed⟩
      · have hsame : { processed with
            output := processed.output.drop visionBuffer } = processed := by
          rw [hset.output, drop_nil, ← hset.output]
        rw [hsame, hset.output, take_nil, append_nil]
        exact ⟨hpad, fun _ => hset⟩
      · refine ⟨⟨hlater, hind, fun _ hplain => ?_, ?_, fun _ => hlong⟩,
          fun hnone => ⟨?_, fun _ => hprocessed.input, ?_⟩⟩
        · have hfits := hprocessed.fits (.inr hplain)
          simp only [held, hprocessed.input, length_drop, length_nil]
          omega
        · intro hunchecked
          exact absurd (hchecked.symm.trans hunchecked) (by decide)
        · rw [take_eq_nil_iff] at hnone
          rcases hnone with hroom | hempty
          · exact absurd hroom (by decide)
          · exact drop_eq_nil_of_le (by rw [hempty]; exact Nat.zero_le _)
        · intro hunchecked
          exact absurd (hchecked.symm.trans hunchecked) (by decide)

end Unpadding

/-- No byte is held back in the decoder when the client closes: it needs 21 of
them to find out whether there are frames. -/
def VisionClient.Recognised {userId : VisionUserId} (client : VisionClient userId) : Prop :=
  client.plaintext = [] ∨ 21 ≤ client.plaintext.length

section Ends

variable {client : VisionClient userId} {sent : List UInt8}

/-- At the switch all of the plaintext has been read, and is sent. -/
theorem VisionClient.switch {early late : List UInt8}
    (hread : early ++ late = client.plaintext) {state : VisionState}
    (hdir : state.isDirect = true) (hall : ((new userId).push early).decodeAll =
      .ok (state, sent)) : late = [] ∧ sent = client.unpadded ∧ client.final.isDirect = true := by
  have hlate := client.direct_last early late state sent hread hall hdir
  rw [hlate, append_nil] at hread
  have hdecodes := client.decodes
  rw [← hread, hall] at hdecodes
  obtain ⟨rfl, hsent⟩ := Prod.mk.inj (Except.ok.inj hdecodes)
  exact ⟨hlate, hsent, hdir⟩

theorem Unpadding.prefix_sent {read left : List UInt8} (hpad : Unpadding userId read decoder sent)
    (hread : read ++ left = client.plaintext) : sent <+: client.unpadded := by
  have hall := hpad.later left
  rw [hread, client.decodes] at hall
  cases hlater : (decoder.push left).decodeAll with
  | error error =>
    rw [hlater] at hall
    simp [Except.map] at hall
  | ok later =>
    rw [hlater] at hall
    obtain ⟨-, hout⟩ := Prod.mk.inj (Except.ok.inj hall)
    rw [hout]
    exact prefix_append _ _

/-- At the end without a switch the bytes that are held back are missing. -/
theorem Unpadding.ended (hpad : Unpadding userId client.plaintext decoder sent)
    (hset : SettledDecoder decoder) :
    client.raw = [] ∧ (sent = client.unpadded ↔ client.Recognised) := by
  have hall := hpad.later []
  rw [append_nil, client.decodes] at hall
  have hstate : ∀ out, decoder.decodeAll = .ok (decoder.state, out) →
      client.raw = [] ∧ client.unpadded = sent ++ out := by
    intro out hout
    rw [VisionDecoder.push_nil, hout] at hall
    obtain ⟨hfinal, hunpadded⟩ := Prod.mk.inj (Except.ok.inj hall)
    refine ⟨?_, hunpadded⟩
    by_contra hraw
    have hdir := client.raw_direct hraw
    rw [hfinal] at hdir
    exact absurd (hpad.indirect.symm.trans hdir) (by decide)
  cases hchecked : decoder.state.checkedPrefix with
  | true =>
    obtain ⟨hraw, hunpadded⟩ := hstate [] (by
      rw [decodeAll_empty (hset.checked hchecked), hset.output])
    refine ⟨hraw, iff_of_true ?_ (.inr (hpad.checked hchecked))⟩
    rw [hunpadded, append_nil]
  | false =>
    obtain ⟨hdecoder, rfl, -⟩ := hpad.unchecked hchecked
    have hshort := hset.unchecked hchecked
    rw [hdecoder] at hshort
    change client.plaintext.length < 21 at hshort
    obtain ⟨hraw, hunpadded⟩ := hstate client.plaintext (by
      rw [hdecoder]
      exact decodeAll_short userId hshort)
    refine ⟨hraw, ?_⟩
    rw [hunpadded, nil_append, VisionClient.Recognised]
    constructor
    · intro hempty
      exact .inl hempty.symm
    · rintro (hempty | hlong)
      · exact hempty.symm
      · omega

end Ends

end KeliCore
