/-
What a Vision decoder hands out.  Its loop does not care how the input is cut
up, so everything it will ever hand out is a function of what it holds and the
bytes it still gets, and every call of the reader keeps to this function.
-/
import KeliCore.Vision

namespace KeliCore

open Reading List VisionState

variable {decoder next : VisionDecoder}
variable (before : List UInt8)

namespace VisionDecoder

/-- The rest of the loop after a turn. -/
def proceed : VisionDecoder × Except IoError Unit → VisionDecoder × Except IoError Unit
  | (next, .error error) => (next, .error error)
  | (next, .ok ()) => next.processLoop

theorem processLoop_turn (hinput : decoder.input ≠ []) (hplain : decoder.state.plain = false) :
    decoder.processLoop = proceed decoder.consume.settle := by
  rw [processLoop, dif_pos ⟨hinput, hplain⟩]
  split <;> simp_all [proceed]

theorem processLoop_done (hdone : decoder.input = [] ∨ decoder.state.plain = true) :
    decoder.processLoop = (decoder, .ok ()) := by
  rw [processLoop, dif_neg]
  rintro ⟨hinput, hplain⟩
  rcases hdone with hnil | hset
  · exact hinput hnil
  · simp [hplain] at hset

section Consume

variable {state : VisionState} {output : List UInt8}

theorem consume_command (hcmd : 0 < state.remainingCommand) (data : UInt8) (rest : List UInt8) :
    consume ⟨state, data :: rest, output⟩ = ⟨state.commandByte data, rest, output⟩ := by
  simp only [consume, if_pos hcmd]

theorem consume_content (hcmd : ¬ 0 < state.remainingCommand)
    (hcontent : 0 < state.remainingContent) {input : List UInt8} {length : Nat}
    (hlen : min state.remainingContent.toNat input.length = length) :
    consume ⟨state, input, output⟩ =
      ⟨{ state with remainingContent := state.remainingContent - length },
        input.drop length, output ++ input.take length⟩ := by
  simp only [consume, if_neg hcmd, if_pos hcontent, hlen]

theorem consume_padding (hcmd : ¬ 0 < state.remainingCommand)
    (hcontent : ¬ 0 < state.remainingContent)
    (hpadding : 0 < state.remainingPadding) {input : List UInt8} {length : Nat}
    (hlen : min state.remainingPadding.toNat input.length = length) :
    consume ⟨state, input, output⟩ =
      ⟨{ state with remainingPadding := state.remainingPadding - length },
        input.drop length, output⟩ := by
  simp only [consume, if_neg hcmd, if_neg hcontent, if_pos hpadding, hlen]

theorem min_append {wanted : Int} {input : List UInt8}
    (hmore : ¬ wanted.toNat ≤ input.length) (more : List UInt8) :
    min wanted.toNat (input ++ more).length = input.length +
      min (wanted - input.length).toNat more.length := by
  rw [length_append]
  omega

/-- More input either waits behind what a turn takes, or the turn takes all
that is there and could take more. -/
theorem consume_push (decoder : VisionDecoder) (hinput : decoder.input ≠ []) (more : List UInt8) :
    (decoder.push more).consume = decoder.consume.push more ∨
      (decoder.consume.input = [] ∧ decoder.consume.state.idle = false ∧
        decoder.consume.state.plain = decoder.state.plain ∧
        (decoder.push more).consume = (decoder.consume.push more).consume) := by
  obtain ⟨state, input, output⟩ := decoder
  simp only [push]
  by_cases hcmd : 0 < state.remainingCommand
  · left
    obtain ⟨data, rest, rfl⟩ := exists_cons_of_ne_nil hinput
    rw [consume_command hcmd, cons_append, consume_command hcmd]
  · by_cases hcontent : 0 < state.remainingContent
    · by_cases hall : state.remainingContent.toNat ≤ input.length
      · left
        have hmore : state.remainingContent.toNat ≤ (input ++ more).length := by
          rw [length_append]
          omega
        rw [consume_content hcmd hcontent (Nat.min_eq_left hall),
          consume_content hcmd hcontent (Nat.min_eq_left hmore),
          drop_append_of_le_length hall, take_append_of_le_length hall]
      · right
        rw [consume_content hcmd hcontent (Nat.min_eq_right (Nat.le_of_not_le hall))]
        refine ⟨drop_length, ?_, rfl, ?_⟩
        · exact not_idle (by dsimp only; omega)
        · have hrest := @consume_content { state with
              remainingContent := state.remainingContent - input.length }
            (output ++ input) hcmd (by dsimp only; omega) more _ rfl
          simp only [drop_length, nil_append, take_length]
          rw [hrest, consume_content hcmd hcontent (min_append hall more),
            drop_length_add_append, take_length_add_append,
            append_assoc, Int.natCast_add, Int.sub_sub]
    · by_cases hpadding : 0 < state.remainingPadding
      · by_cases hall : state.remainingPadding.toNat ≤ input.length
        · left
          have hmore : state.remainingPadding.toNat ≤ (input ++ more).length := by
            rw [length_append]
            omega
          rw [consume_padding hcmd hcontent hpadding (Nat.min_eq_left hall),
            consume_padding hcmd hcontent hpadding (Nat.min_eq_left hmore),
            drop_append_of_le_length hall]
        · right
          rw [consume_padding hcmd hcontent hpadding (Nat.min_eq_right (Nat.le_of_not_le hall))]
          refine ⟨drop_length, ?_, rfl, ?_⟩
          · exact not_idle (by dsimp only; omega)
          · have hrest := @consume_padding { state with
                remainingPadding := state.remainingPadding - input.length }
              output hcmd hcontent (by dsimp only; omega) more _ rfl
            simp only [drop_length, nil_append]
            rw [hrest, consume_padding hcmd hcontent hpadding
                (min_append hall more), drop_length_add_append, Int.natCast_add, Int.sub_sub]
      · left
        have hidle : state.idle = true := by
          simp only [idle, decide_eq_true_eq]
          omega
        rw [consume_of_idle hidle, consume_of_idle hidle]

end Consume

@[simp] theorem push_nil (decoder : VisionDecoder) : decoder.push [] = decoder := by simp [push]

theorem consume_plain (decoder : VisionDecoder) :
    decoder.consume.state.plain = decoder.state.plain := by
  unfold consume commandByte
  dsimp only
  repeat' split
  all_goals rfl

theorem settle_of_busy (hbusy : decoder.state.idle = false) :
    decoder.settle = (decoder, .ok ()) := by simp [settle, hbusy]

theorem settle_push (decoder : VisionDecoder)
    (hplain : decoder.state.plain = false) (more : List UInt8) :
    (∀ next, decoder.settle = (next, .ok ()) → (next.state.plain = false ∧
        (decoder.push more).settle = (next.push more, .ok ())) ∨
      (next.state.plain = true ∧ next.input = [] ∧
        (decoder.push more).settle = ({ next with output := next.output ++ more }, .ok ()))) ∧
    (∀ next error, decoder.settle = (next, .error error) →
      (decoder.push more).settle = (next.push more, .error error)) := by
  have hstate : (decoder.push more).state = decoder.state := rfl
  unfold settle
  rw [hstate]
  dsimp only
  split
  · refine ⟨fun next hnext => .inl ?_, fun next error hnext => by simp at hnext⟩
    cases hnext
    exact ⟨hplain, rfl⟩
  · split
    · refine ⟨fun next hnext => .inl ?_, fun next error hnext => by simp at hnext⟩
      cases hnext
      exact ⟨hplain, rfl⟩
    · split
      · refine ⟨fun next hnext => .inr ?_, fun next error hnext => by simp at hnext⟩
        cases hnext
        refine ⟨rfl, rfl, ?_⟩
        simp [push]
      · refine ⟨fun next hnext => by simp at hnext, fun next error hnext => ?_⟩
        cases hnext
        rfl

/-- The loop does not care whether more input comes now or later. -/
theorem processLoop_push (decoder : VisionDecoder)
    (hplain : decoder.state.plain = false) (more : List UInt8) :
    (∀ next, decoder.processLoop = (next, .ok ()) → next.input = [] ∧
      (decoder.push more).processLoop = if next.state.plain then
          ({ next with output := next.output ++ more }, .ok ())
        else (next.push more).processLoop) ∧
    (∀ next error, decoder.processLoop = (next, .error error) →
      ((decoder.push more).processLoop).2 = .error error) := by
  induction decoder using processLoop.induct with
  | case3 decoder hdone =>
    have hinput : decoder.input = [] := by
      by_contra hinput
      exact hdone ⟨hinput, hplain⟩
    rw [processLoop_done (.inl hinput)]
    refine ⟨fun next hnext => ?_, fun next error hnext => by simp at hnext⟩
    cases hnext
    simp [hinput, hplain]
  | case1 decoder hturn after error hsettle =>
    have hloop : decoder.processLoop = (after, .error error) := by
      rw [processLoop_turn hturn.1 hplain, hsettle]
      rfl
    have hpushed : (decoder.push more).input ≠ [] := by simp [push, hturn.1]
    rw [hloop]
    refine ⟨fun next hnext => by simp at hnext, fun next other hnext => ?_⟩
    cases hnext
    rcases consume_push decoder hturn.1 more with hwaits | ⟨-, hbusy, -⟩
    · have hplain' := (consume_plain decoder).trans hplain
      rw [processLoop_turn hpushed hplain, hwaits, (settle_push _ hplain' more).2 _ _ hsettle]
      rfl
    · rw [settle_of_busy hbusy] at hsettle
      simp at hsettle
  | case2 decoder hturn after hsettle ih =>
    have hloop : decoder.processLoop = after.processLoop := by
      rw [processLoop_turn hturn.1 hplain, hsettle]
      rfl
    have hpushed : (decoder.push more).input ≠ [] := by simp [push, hturn.1]
    have hplain' := (consume_plain decoder).trans hplain
    rw [hloop]
    rcases consume_push decoder hturn.1 more with hwaits | ⟨hempty, hbusy, -, htakes⟩
    · rcases (settle_push _ hplain' more).1 _ hsettle with
        ⟨hnext, hsettled⟩ | ⟨hnext, hinput, hsettled⟩
      · have hmore : (decoder.push more).processLoop = (after.push more).processLoop := by
          rw [processLoop_turn hpushed hplain, hwaits, hsettled]
          rfl
        rw [hmore]
        exact ih hnext
      · have hmore : (decoder.push more).processLoop =
            ({ after with output := after.output ++ more }, .ok ()) := by
          rw [processLoop_turn hpushed hplain, hwaits, hsettled]
          exact processLoop_done (.inr hnext)
        rw [hmore, processLoop_done (.inr hnext)]
        refine ⟨fun next hdone => ?_, fun next error hdone => by simp at hdone⟩
        cases hdone
        simp [hinput, hnext]
    · -- The turn took all the input and waits for more of the same run.
      rw [settle_of_busy hbusy] at hsettle
      cases hsettle
      rw [processLoop_done (.inl hempty)]
      refine ⟨fun next hdone => ?_, fun next error hdone => by simp at hdone⟩
      cases hdone
      rw [if_neg (by simp [hplain'])]
      refine ⟨hempty, ?_⟩
      by_cases hmore : more = []
      · rw [hmore, push_nil, push_nil, hloop]
      · have hcarries : (decoder.consume.push more).input ≠ [] := by simp [push, hempty, hmore]
        rw [processLoop_turn hpushed hplain, htakes, processLoop_turn hcarries hplain']

theorem settle_checkedPrefix (decoder : VisionDecoder) :
    decoder.settle.1.state.checkedPrefix = decoder.state.checkedPrefix := by
  unfold settle
  dsimp only
  repeat' split
  all_goals rfl

theorem consume_checkedPrefix (decoder : VisionDecoder) :
    decoder.consume.state.checkedPrefix = decoder.state.checkedPrefix := by
  unfold consume commandByte
  dsimp only
  repeat' split
  all_goals rfl

theorem settle_error {error : IoError}
    (herror : decoder.settle.2 = .error error) : error.isWouldBlock = false := by
  unfold settle at herror
  dsimp only at herror
  repeat' split at herror
  all_goals cases herror
  rfl

/-- What one turn keeps, the loop keeps. -/
theorem processLoop_keeps {good : VisionDecoder → Prop} {decoder : VisionDecoder}
    (hkeeps : ∀ decoder, good decoder → good decoder.consume.settle.1) (hgood : good decoder) :
    good decoder.processLoop.1 := by
  induction decoder using processLoop.induct with
  | case1 decoder hturn after error hsettle =>
    have hnext := hkeeps decoder hgood
    rw [hsettle] at hnext
    rwa [processLoop_turn hturn.1 hturn.2, hsettle]
  | case2 decoder hturn after hsettle ih =>
    have hnext := hkeeps decoder hgood
    rw [hsettle] at hnext
    rw [processLoop_turn hturn.1 hturn.2, hsettle]
    exact ih hnext
  | case3 decoder hdone => rwa [processLoop, dif_neg hdone]

theorem processLoop_checkedPrefix (decoder : VisionDecoder) :
    decoder.processLoop.1.state.checkedPrefix = decoder.state.checkedPrefix := by
  refine @processLoop_keeps
    (fun next => next.state.checkedPrefix = decoder.state.checkedPrefix) _
    (fun next hkept => ?_) rfl
  rw [settle_checkedPrefix, consume_checkedPrefix, hkept]

variable {error : IoError} {room : Nat}

theorem processLoop_error (decoder : VisionDecoder)
    (herror : decoder.processLoop.2 = .error error) : error.isWouldBlock = false := by
  induction decoder using processLoop.induct with
  | case1 decoder hturn after other hsettle =>
    rw [processLoop_turn hturn.1 hturn.2, hsettle] at herror
    apply @settle_error decoder.consume
    rw [hsettle]
    exact herror
  | case2 decoder hturn after hsettle ih =>
    rw [processLoop_turn hturn.1 hturn.2, hsettle] at herror
    exact ih herror
  | case3 decoder hdone =>
    rw [processLoop, dif_neg hdone] at herror
    simp at herror

/-- The state after all the input and everything handed out until then; what
does not make up a prefix is handed out at the end. -/
def decodeAll (decoder : VisionDecoder) : Except IoError (VisionState × List UInt8) :=
  match decoder.processBuffer with
  | (next, .ok ()) => .ok (next.state, next.output ++ next.input)
  | (_, .error error) => .error error

theorem decodeAll_ok (hproc : decoder.processBuffer = (next, .ok ())) :
    decoder.decodeAll = .ok (next.state, next.output ++ next.input) := by rw [decodeAll, hproc]

theorem decodeAll_error (hproc : decoder.processBuffer.2 = .error error) :
    decoder.decodeAll = .error error := by
  rw [decodeAll]
  split <;> simp_all

theorem decodeAll_plain (hplain : decoder.state.plain = true) :
    decoder.decodeAll = .ok (decoder.state, decoder.output ++ decoder.input) := by
  rw [decodeAll, processBuffer, if_pos hplain]
  simp

theorem processBuffer_checked (hplain : decoder.state.plain = false)
    (hchecked : decoder.state.checkedPrefix = true) :
    decoder.processBuffer = decoder.processLoop := by
  rw [processBuffer, if_neg (by simp [hplain]), if_pos hchecked]

theorem decodeAll_empty (hinput : decoder.input = []) :
    decoder.decodeAll = .ok (decoder.state, decoder.output) := by
  have hproc : decoder.processBuffer = (decoder, .ok ()) := by
    rw [processBuffer, processLoop_done (.inl hinput), hinput]
    obtain ⟨state, input, output⟩ := decoder
    cases hinput
    simp
  rw [decodeAll_ok hproc, hinput, append_nil]

theorem push_push (decoder : VisionDecoder) (first second : List UInt8) :
    (decoder.push first).push second = decoder.push (first ++ second) := by simp [push]

theorem processLoop_push_decodeAll
    (hplain : decoder.state.plain = false) (hchecked : decoder.state.checkedPrefix = true)
    (hloop : decoder.processLoop = (next, .ok ())) (more : List UInt8) :
    (decoder.push more).decodeAll = (next.push more).decodeAll := by
  obtain ⟨hinput, hmore⟩ := (processLoop_push decoder hplain more).1 _ hloop
  have hproc := @processBuffer_checked (decoder.push more) hplain hchecked
  rw [hmore] at hproc
  cases hnext : next.state.plain with
  | true =>
    rw [hnext, if_pos rfl] at hproc
    have hlater : (next.push more).state.plain = true := hnext
    rw [decodeAll_ok hproc, decodeAll_plain hlater]
    simp [push, hinput]
  | false =>
    rw [hnext, if_neg (by simp)] at hproc
    have hkept := processLoop_checkedPrefix decoder
    rw [hloop] at hkept
    have hlater := @processBuffer_checked (next.push more) hnext (hkept.trans hchecked)
    rw [decodeAll, decodeAll, hproc, hlater]

/-- The check of the first bytes when there are more than enough. -/
theorem checkPrefix_push (decoder : VisionDecoder) (hplain : decoder.state.plain = false)
    (hlen : ¬ decoder.input.length < 21) (more : List UInt8) :
    (decoder.checkPrefix.state.plain = false ∧
        (decoder.push more).checkPrefix = decoder.checkPrefix.push more) ∨
      (decoder.checkPrefix.state.plain = true ∧ decoder.checkPrefix.input = [] ∧
        (decoder.push more).checkPrefix = { decoder.checkPrefix with
            output := decoder.checkPrefix.output ++ more }) := by
  obtain ⟨state, input, output⟩ := decoder
  dsimp only at hplain hlen
  have htake : (input ++ more).take 16 = input.take 16 := take_append_of_le_length (by omega)
  have hdrop : (input ++ more).drop 16 = input.drop 16 ++ more :=
    drop_append_of_le_length (by omega)
  simp only [checkPrefix, push, htake, hdrop]
  split
  · left
    exact ⟨hplain, rfl⟩
  · right
    simp

theorem checkPrefix_checkedPrefix (decoder : VisionDecoder) :
    decoder.checkPrefix.state.checkedPrefix = true := by
  unfold checkPrefix
  dsimp only
  split <;> rfl

theorem processBuffer_check (hplain : decoder.state.plain = false)
    (hchecked : decoder.state.checkedPrefix = false) (hlen : ¬ decoder.input.length < 21) :
    decoder.processBuffer = decoder.checkPrefix.processLoop := by
  rw [processBuffer, if_neg (by simp [hplain]), if_neg (by simp [hchecked]), if_neg hlen]

theorem decodeAll_check (hplain : decoder.state.plain = false)
    (hchecked : decoder.state.checkedPrefix = false) (hlen : ¬ decoder.input.length < 21) :
    decoder.decodeAll = decoder.checkPrefix.decodeAll := by
  rw [decodeAll, processBuffer_check hplain hchecked hlen]
  have hnow := checkPrefix_checkedPrefix decoder
  cases hnext : decoder.checkPrefix.state.plain with
  | false => rw [decodeAll, processBuffer_checked hnext hnow]
  | true => rw [processLoop_done (.inr hnext), decodeAll_plain hnext]

theorem processBuffer_push (hproc : decoder.processBuffer = (next, .ok ())) (more : List UInt8) :
    (decoder.push more).decodeAll = (next.push more).decodeAll := by
  cases hplain : decoder.state.plain with
  | true =>
    rw [processBuffer, if_pos hplain] at hproc
    cases hproc
    rw [@decodeAll_plain (decoder.push more) hplain, @decodeAll_plain
      (push { decoder with input := [], output := _ } more) hplain]
    simp [push]
  | false =>
    cases hchecked : decoder.state.checkedPrefix with
    | true =>
      rw [processBuffer_checked hplain hchecked] at hproc
      exact processLoop_push_decodeAll hplain hchecked hproc more
    | false =>
      by_cases hlen : decoder.input.length < 21
      · rw [processBuffer, if_neg (by simp [hplain]),
          if_neg (by simp [hchecked]), if_pos hlen] at hproc
        cases hproc
        rfl
      · rw [processBuffer_check hplain hchecked hlen] at hproc
        have hmore : ¬ (decoder.push more).input.length < 21 := by
          rw [push, length_append]
          omega
        rw [@decodeAll_check (decoder.push more) hplain hchecked hmore]
        have hnow := checkPrefix_checkedPrefix decoder
        rcases checkPrefix_push decoder hplain hlen more with
          ⟨hnext, hpush⟩ | ⟨hnext, hinput, hpush⟩
        · rw [hpush]
          exact processLoop_push_decodeAll hnext hnow hproc more
        · rw [processLoop_done (.inr hnext)] at hproc
          cases hproc
          rw [hpush, @decodeAll_plain { decoder.checkPrefix with
            output := decoder.checkPrefix.output ++ more } hnext,
            @decodeAll_plain (decoder.checkPrefix.push more) hnext]
          simp [push, hinput]

theorem processBuffer_push_error (hproc : decoder.processBuffer.2 = .error error)
    (more : List UInt8) : (decoder.push more).decodeAll = .error error := by
  apply decodeAll_error
  cases hplain : decoder.state.plain with
  | true => simp [processBuffer, hplain] at hproc
  | false =>
    cases hchecked : decoder.state.checkedPrefix with
    | true =>
      rw [processBuffer_checked hplain hchecked] at hproc
      rw [@processBuffer_checked (decoder.push more) hplain hchecked]
      exact (processLoop_push decoder hplain more).2 _ _ (Prod.ext rfl hproc)
    | false =>
      by_cases hlen : decoder.input.length < 21
      · simp [processBuffer, hplain, hchecked, hlen] at hproc
      · rw [processBuffer_check hplain hchecked hlen] at hproc
        have hmore : ¬ (decoder.push more).input.length < 21 := by
          rw [push, length_append]
          omega
        rw [@processBuffer_check (decoder.push more) hplain hchecked hmore]
        rcases checkPrefix_push decoder hplain hlen more with ⟨hnext, hpush⟩ | ⟨hnext, -⟩
        · rw [hpush]
          exact (processLoop_push _ hnext more).2 _ _ (Prod.ext rfl hproc)
        · rw [processLoop_done (.inr hnext)] at hproc
          simp at hproc

theorem processBuffer_error (hproc : decoder.processBuffer.2 = .error error) :
    error.isWouldBlock = false := by
  unfold processBuffer at hproc
  split at hproc
  · simp at hproc
  · split at hproc
    · exact processLoop_error _ hproc
    · split at hproc
      · simp at hproc
      · exact processLoop_error _ hproc

def prepend (before : List UInt8) (decoder : VisionDecoder) : VisionDecoder :=
  { decoder with output := before ++ decoder.output }

theorem consume_prepend (decoder : VisionDecoder) :
    (decoder.prepend before).consume = decoder.consume.prepend before := by
  unfold consume prepend
  dsimp only
  repeat' split
  all_goals simp [*]

theorem settle_prepend (decoder : VisionDecoder) :
    (decoder.prepend before).settle = (decoder.settle.1.prepend before, decoder.settle.2) := by
  unfold settle prepend
  dsimp only
  repeat' split
  all_goals simp

theorem processLoop_prepend (decoder : VisionDecoder) : (decoder.prepend before).processLoop =
      (decoder.processLoop.1.prepend before, decoder.processLoop.2) := by
  induction decoder using processLoop.induct with
  | case1 decoder hturn after error hsettle =>
    rw [@processLoop_turn (decoder.prepend before) hturn.1 hturn.2,
      processLoop_turn hturn.1 hturn.2, consume_prepend, settle_prepend, hsettle]
    rfl
  | case2 decoder hturn after hsettle ih =>
    rw [@processLoop_turn (decoder.prepend before) hturn.1 hturn.2,
      processLoop_turn hturn.1 hturn.2, consume_prepend, settle_prepend, hsettle]
    exact ih
  | case3 decoder hdone =>
    have hprepend : ¬ ((decoder.prepend before).input ≠ [] ∧
        (decoder.prepend before).state.plain = false) := hdone
    rw [processLoop, dif_neg hprepend, processLoop, dif_neg hdone]

theorem checkPrefix_prepend (decoder : VisionDecoder) :
    (decoder.prepend before).checkPrefix = decoder.checkPrefix.prepend before := by
  unfold checkPrefix prepend
  dsimp only
  split
  all_goals simp

theorem decodeAll_prepend (decoder : VisionDecoder) : (decoder.prepend before).decodeAll =
      decoder.decodeAll.map fun (state, out) => (state, before ++ out) := by
  have hproc : (decoder.prepend before).processBuffer =
      (decoder.processBuffer.1.prepend before, decoder.processBuffer.2) := by
    have hstate : (decoder.prepend before).state = decoder.state := rfl
    have hinput : (decoder.prepend before).input = decoder.input := rfl
    simp only [processBuffer, checkPrefix_prepend, processLoop_prepend, hstate, hinput]
    repeat' split
    all_goals simp [prepend]
  rw [decodeAll, decodeAll, hproc]
  obtain ⟨next, result⟩ := decoder.processBuffer
  cases result with
  | error error => rfl
  | ok value => simp [prepend, Except.map]

/-- The result of a call keeps to what decoding everything gives: a piece
comes before all that is handed out later, an empty piece is the end, and an
error that is not a block is the one that decoding everything meets. -/
def Keeps (decoder : VisionDecoder) (source : Source UInt8) :
    (VisionDecoder × Source UInt8) × Except IoError (List UInt8) → Prop
  | ((next, rest), .ok piece) =>
    rest.blocks ≤ source.blocks ∧
    (decoder.push source.bytes).decodeAll = ((next.push rest.bytes).decodeAll.map
        fun (state, out) => (state, piece ++ out)) ∧
    (piece = [] → rest = [] ∧ (decoder.push source.bytes).decodeAll = .ok (next.state, []))
  | ((next, rest), .error error) =>
    (error.isWouldBlock = true ∧ rest.blocks < source.blocks ∧
      (decoder.push source.bytes).decodeAll = (next.push rest.bytes).decodeAll) ∨
    (error.isWouldBlock = false ∧ (decoder.push source.bytes).decodeAll = .error error)

theorem Keeps.earlier {source rest : Source UInt8}
    {result : (VisionDecoder × Source UInt8) × Except IoError (List UInt8)}
    (hall : (decoder.push source.bytes).decodeAll = (next.push rest.bytes).decodeAll)
    (hblocks : rest.blocks ≤ source.blocks) (hkeeps : Keeps next rest result) :
    Keeps decoder source result := by
  obtain ⟨⟨last, final⟩, outcome⟩ := result
  cases outcome with
  | ok piece =>
    obtain ⟨hless, hmap, hend⟩ := hkeeps
    exact ⟨hless.trans hblocks, hall.trans hmap,
      fun hnil => ⟨(hend hnil).1, hall.trans (hend hnil).2⟩⟩
  | error error =>
    rcases hkeeps with ⟨hblock, hless, hsame⟩ | ⟨hother, herror⟩
    · exact .inl ⟨hblock, hless.trans_le hblocks, hall.trans hsame⟩
    · exact .inr ⟨hother, hall.trans herror⟩

theorem keeps_handOut (houtput : decoder.output ≠ []) (source : Source UInt8) (hroom : 0 < room) :
    Keeps decoder source (decoder.handOut source room) := by
  have hsplit : decoder.push source.bytes =
      (push { decoder with output := decoder.output.drop room }
        source.bytes).prepend (decoder.output.take room) := by simp [push, prepend]
  refine ⟨Nat.le_refl _, ?_, fun hnil => ?_⟩
  · rw [hsplit, decodeAll_prepend]
  · rcases take_eq_nil_iff.1 hnil with hzero | hempty
    · omega
    · exact absurd hempty houtput

theorem readLoop_read (houtput : decoder.output = [])
    (hproc : decoder.processBuffer = (next, .ok ()))
    (hnext : next.output = []) (source : Source UInt8) (room : Nat) : decoder.readLoop source room =
      match source.read 8192 with
      | (rest, none) => ((next, rest), .error wouldBlock)
      | (rest, some []) =>
        if next.input ≠ [] then next.finish.readLoop rest room
        else ((next, rest), .ok [])
      | (rest, some (first :: tail)) => (next.push (first :: tail)).readLoop rest room := by
  rw [readLoop, if_neg (by simp [houtput])]
  split
  · simp_all
  next after hafter =>
    rw [hproc] at hafter
    cases hafter
    rw [if_neg (by simp [hnext])]
    split <;> simp_all

theorem decodeAll_finish (hproc : decoder.processBuffer = (next, .ok ())) :
    decoder.decodeAll = next.finish.decodeAll := by
  rw [decodeAll_ok hproc, @decodeAll_empty next.finish rfl]
  rfl

theorem keeps_readLoop (hroom : 0 < room) (decoder : VisionDecoder) (source : Source UInt8) :
    Keeps decoder source (decoder.readLoop source room) := by
  induction decoder, source using readLoop.induct with
  | case1 decoder source houtput =>
    rw [readLoop, if_pos houtput]
    exact keeps_handOut houtput source hroom
  | case2 decoder source houtput next error hproc =>
    have herror : decoder.processBuffer.2 = .error error := by rw [hproc]
    have hloop : decoder.readLoop source room = ((next, source), .error error) := by
      rw [readLoop, if_neg houtput]
      split <;> simp_all
    rw [hloop]
    exact .inr ⟨processBuffer_error herror, processBuffer_push_error herror _⟩
  | case3 decoder source houtput next hproc hnext =>
    have hloop : decoder.readLoop source room = next.handOut source room := by
      rw [readLoop, if_neg houtput]
      split <;> simp_all
    rw [hloop]
    exact (keeps_handOut hnext source hroom).earlier (processBuffer_push hproc _) (Nat.le_refl _)
  | case4 decoder source houtput next hproc hnext rest hread =>
    obtain ⟨hbytes, hblocks⟩ := Source.read_none hread
    rw [readLoop_read (not_not.1 houtput) hproc (not_not.1 hnext), hread]
    refine .inl ⟨rfl, by omega, ?_⟩
    rw [hbytes, processBuffer_push hproc]
  | case5 decoder source houtput next hproc hnext rest hread hinput ih =>
    obtain ⟨rfl, rfl⟩ := Source.read_end (by omega) hread
    rw [readLoop_read (not_not.1 houtput) hproc (not_not.1 hnext), hread]
    dsimp only
    rw [if_pos hinput]
    refine ih.earlier ?_ (Nat.le_refl _)
    change (decoder.push []).decodeAll = (next.finish.push []).decodeAll
    rw [push_nil, push_nil]
    exact decodeAll_finish hproc
  | case6 decoder source houtput next hproc hnext rest hread hinput =>
    obtain ⟨rfl, rfl⟩ := Source.read_end (by omega) hread
    rw [readLoop_read (not_not.1 houtput) hproc (not_not.1 hnext), hread]
    dsimp only
    rw [if_neg hinput]
    have hlast : next.decodeAll = .ok (next.state, []) := by
      rw [decodeAll_empty (not_not.1 hinput), not_not.1 hnext]
    have hall : (decoder.push (Source.bytes [])).decodeAll = .ok (next.state, []) := by
      rw [processBuffer_push hproc]
      change (next.push []).decodeAll = _
      rw [push_nil, hlast]
    refine ⟨Nat.le_refl _, ?_, fun _ => ⟨rfl, hall⟩⟩
    rw [hall]
    change _ = (next.push []).decodeAll.map _
    rw [push_nil, hlast]
    rfl
  | case7 decoder source houtput next hproc hnext rest first tail hread ih =>
    obtain ⟨hbytes, -, hblocks⟩ := Source.read_some hread
    rw [readLoop_read (not_not.1 houtput) hproc (not_not.1 hnext), hread]
    refine ih.earlier ?_ hblocks.le
    rw [processBuffer_push hproc, push_push, hbytes]

/-- The calls of a reader that is to decode to a result. -/
structure Decodes (all : Except IoError (VisionState × List UInt8))
    (session : Session (VisionDecoder × Source UInt8) IoError UInt8) : Prop where
  later : session.failed = none → all =
    ((session.reader.1.push session.reader.2.bytes).decodeAll.map
      fun (state, out) => (state, session.got ++ out))
  ended : session.ended = true → session.failed = none ∧
    session.reader.2 = [] ∧ all = .ok (session.reader.1.state, session.got)

theorem decodes_start (decoder : VisionDecoder) (source : Source UInt8) :
    Decodes (decoder.push source.bytes).decodeAll { reader := (decoder, source) } where
  later _ := by cases (decoder.push source.bytes).decodeAll <;> rfl
  ended hended := by simp at hended

theorem Decodes.pull {all : Except IoError (VisionState × List UInt8)}
    {session : Session (VisionDecoder × Source UInt8) IoError UInt8}
    (hdecodes : Decodes all session) (room : Nat) :
    Decodes all (Reading.pull read IoError.isWouldBlock session room) := by
  obtain ⟨⟨decoder, source⟩, got, ended, failed⟩ := session
  cases failed with
  | some error => exact hdecodes
  | none =>
    have hlater := hdecodes.later rfl
    have hkeeps := keeps_readLoop (Nat.succ_pos room) decoder source
    have hread : read (decoder, source) (room + 1) = decoder.readLoop source (room + 1) := by
      rw [read, if_neg (by omega)]
    dsimp only at hlater
    simp only [Reading.pull, hread]
    generalize decoder.readLoop source (room + 1) = result at hkeeps ⊢
    obtain ⟨⟨next, rest⟩, outcome⟩ := result
    cases outcome with
    | ok piece =>
      obtain ⟨-, hmap, hlast⟩ := hkeeps
      rw [hmap] at hlater
      cases piece with
      | nil =>
        obtain ⟨hend, hall⟩ := hlast rfl
        rw [← hmap] at hlater
        refine ⟨fun _ => ?_, fun _ => ⟨rfl, hend, ?_⟩⟩
        · rw [hlater, hmap]
          cases (next.push rest.bytes).decodeAll <;> rfl
        · rw [hlater, hall]
          simp [Except.map]
      | cons first tail =>
        refine ⟨fun _ => ?_, fun hended => ?_⟩
        · rw [hlater]
          cases (next.push rest.bytes).decodeAll <;> simp [Except.map]
        · -- Nothing is left to return after the end.
          obtain ⟨-, -, hall⟩ := hdecodes.ended hended
          rw [hall] at hlater
          cases hafter : (next.push rest.bytes).decodeAll with
          | error error | ok value => simp [hafter, Except.map] at hlater
    | error error =>
      dsimp only
      rcases hkeeps with ⟨hblock, hless, hsame⟩ | ⟨hother, herror⟩
      · rw [if_pos hblock]
        refine ⟨fun _ => hsame ▸ hlater, fun hended => ?_⟩
        obtain ⟨-, hend, -⟩ := hdecodes.ended hended
        dsimp only at hend
        rw [hend] at hless
        simp [Source.blocks] at hless
      · rw [if_neg (by simp [hother])]
        refine ⟨fun hnone => by simp at hnone, fun hended => ?_⟩
        obtain ⟨-, -, hall⟩ := hdecodes.ended hended
        rw [hall, herror] at hlater
        simp [Except.map] at hlater

def Owes (state : VisionState) (reader : VisionDecoder × Source UInt8)
    (owed : List UInt8) (blocks : Nat) : Prop :=
  (reader.1.push reader.2.bytes).decodeAll = .ok (state, owed) ∧ reader.2.blocks ≤ blocks

theorem delivers (state : VisionState) : Delivers read IoError.isWouldBlock (Owes state) := by
  rintro ⟨decoder, source⟩ owed blocks room ⟨hall, hblocks⟩ hroom
  have hkeeps := keeps_readLoop hroom decoder source
  have hread : read (decoder, source) room = decoder.readLoop source room := by
    rw [read, if_neg (by omega)]
  dsimp only at hall hblocks
  rw [hread]
  generalize decoder.readLoop source room = result at hkeeps ⊢
  obtain ⟨⟨next, rest⟩, outcome⟩ := result
  cases outcome with
  | ok piece =>
    obtain ⟨hless, hmap, hlast⟩ := hkeeps
    rw [hall] at hmap hlast
    cases hafter : (next.push rest.bytes).decodeAll with
    | error error => simp [hafter, Except.map] at hmap
    | ok value =>
      obtain ⟨final, out⟩ := value
      rw [hafter, Except.map] at hmap
      cases hmap
      refine .inl ⟨_, piece, out, rfl, rfl, fun hnil => ?_, hafter, hless.trans hblocks⟩
      have hempty := (hlast hnil).2
      simp only [Except.ok.injEq, Prod.mk.injEq] at hempty
      exact hempty.2
  | error error =>
    rcases hkeeps with ⟨hblock, hless, hsame⟩ | ⟨-, herror⟩
    · exact .inr ⟨_, error, rest.blocks, rfl, hblock,
        hless.trans_le hblocks, hsame ▸ hall, Nat.le_refl _⟩
    · rw [hall] at herror
      simp at herror

end VisionDecoder

end KeliCore
