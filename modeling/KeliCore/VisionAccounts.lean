/-
The accounts of the Vision relay: when the bytes it records are the bytes its
writers took.
-/
import KeliCore.VisionRelay

namespace KeliCore

open Relaying

theorem asyncTrafficFlushBytes_pos : 0 < asyncTrafficFlushBytes := by decide

variable {bytes : Nat} {events : List (RelayEvent Direction)} {result : End Direction}

namespace TrafficFlush

variable {flush : TrafficFlush}

theorem add_zero (hpending : flush.pending ≤ u64Max) : (flush.add 0).pending = 0 ∧
      (flush.add 0).recorded = flush.recorded + flush.pending := by
  rw [add, addUpTo, Nat.add_zero, Nat.min_eq_left hpending]
  split
  next hzero => exact ⟨hzero, by rw [hzero, Nat.add_zero]⟩
  · simp

theorem add_total (hpending : flush.pending < asyncTrafficFlushBytes)
    (hbytes : bytes ≤ vlessAsyncRelayBufferSize) :
    (flush.add bytes).recorded + (flush.add bytes).pending =
        flush.recorded + flush.pending + bytes ∧
      (flush.add bytes).pending < asyncTrafficFlushBytes := by
  have hfits : flush.pending + bytes ≤ u64Max := by
    simp only [asyncTrafficFlushBytes, vlessAsyncRelayBufferSize, u64Max] at *
    omega
  rw [add, addUpTo, Nat.min_eq_left hfits]
  split
  next hzero =>
    rw [hzero]
    exact ⟨by dsimp only; omega, asyncTrafficFlushBytes_pos⟩
  · split
    next hheld =>
      simp only [Bool.and_eq_true, decide_eq_true_eq] at hheld
      exact ⟨(Nat.add_assoc _ _ _).symm, hheld.2⟩
    · exact ⟨by dsimp only; omega, asyncTrafficFlushBytes_pos⟩

theorem add_fresh {total : Nat} (htotal : total ≤ u64Max) :
    ((add total {}).add 0).recorded = total ∧ ((add total {}).add 0).pending = 0 := by
  have hfirst : (add total {}).recorded + (add total {}).pending = total ∧
      (add total {}).pending = 0 := by
    rw [add, addUpTo, Nat.zero_add, Nat.min_eq_left htotal]
    split
    next hzero =>
      subst hzero
      exact ⟨rfl, rfl⟩
    · simp
  obtain ⟨hzero, hrecorded⟩ := add_zero (hfirst.2.trans_le (Nat.zero_le _))
  exact ⟨hrecorded.trans hfirst.1, hzero⟩

end TrafficFlush

/-- Every chunk was written as a whole or not at all. -/
def Whole (trace : List (RelayEvent Direction)) : Prop :=
  ∀ direction, completed direction trace = accepted direction trace

theorem whole_nil : Whole [] := fun _ => rfl

theorem Whole.append {trace : List (RelayEvent Direction)}
    (htrace : Whole trace) (hevents : Whole events) : Whole (trace ++ events) := by
  intro direction
  rw [completed, accepted, bytesOf_append, bytesOf_append]
  exact congrArg₂ _ (htrace direction) (hevents direction)

theorem whole_quiet (hevents : Quiet events) : Whole events := fun direction => by
  rw [completed, accepted, bytesOf_quiet _ _ hevents, bytesOf_quiet _ _ hevents]

theorem whole_chunk (held : Bool) (direction : Direction) (bytes : Nat)
    {result : Write} (hres : result = .all ∨ result = .failed) :
    Whole (chunkEvents held direction bytes result) := by
  intro other
  rw [completed, accepted, bytesOf_chunkEvents, bytesOf_chunkEvents]
  rcases hres with rfl | rfl <;> rfl

namespace VisionRelay

/-- Before the plain relay: the totals count, and nothing is recorded. -/
structure Tunnel (state : VisionRelay) : Prop where
  counts : Counts u64Max state.totals state.trace none
  fresh : state.flush = fun _ => {}
  rawTrace : state.rawTrace = []
  whole : Whole state.trace

/-- What there is to record. -/
def due (state : VisionRelay) (direction : Direction) : Nat :=
  min (accepted direction state.trace) u64Max + accepted direction state.rawTrace

/-- In the plain relay: all is recorded or about to be. -/
structure Flushing (state : VisionRelay) : Prop where
  due : ∀ direction, (state.flush direction).recorded +
    (state.flush direction).pending = state.due direction
  pending : ∀ direction, (state.flush direction).pending < asyncTrafficFlushBytes
  whole : Whole state.trace
  rawWhole : Whole state.rawTrace

/-- At the end: all is recorded, or the tunnel's totals are lost. -/
structure Closed (state : VisionRelay) (result : End Direction) : Prop where
  recorded : ∀ totals, result = .recorded totals → totals = state.due
  lost : result = .lost → state.rawTrace = []
  whole : Whole state.trace
  rawWhole : Whole state.rawTrace

def Books (state : VisionRelay) : Prop :=
  match state.phase with
  | .padding | .head | .select => state.Tunnel
  | .raw => state.Flushing
  | .ended result => state.Closed result

variable {state : VisionRelay}

section

variable (htunnel : state.Tunnel)

include htunnel

theorem Tunnel.emit (hquiet : Quiet events) : (state.emit events).Tunnel where
  counts := htunnel.counts.keep (fun _ => bytesOf_quiet _ _ hquiet) (by simp)
  fresh := htunnel.fresh
  rawTrace := htunnel.rawTrace
  whole := htunnel.whole.append (whole_quiet hquiet)

theorem Tunnel.report (direction : Direction) :
    (state.report.flush direction).recorded = state.due direction ∧
      (state.report.flush direction).pending = 0 := by
  have htotal : state.totals direction ≤ u64Max := by
    rw [htunnel.counts.counted direction]
    exact Nat.min_le_right _ _
  obtain ⟨hrecorded, hpending⟩ := TrafficFlush.add_fresh htotal
  have hflush : state.flush direction = {} := by rw [htunnel.fresh]
  have hnone : accepted direction state.rawTrace = 0 := by
    rw [htunnel.rawTrace]
    rfl
  rw [VisionRelay.report, due, hnone, Nat.add_zero, ← htunnel.counts.counted direction]
  dsimp only
  rw [hflush]
  exact ⟨hrecorded, hpending⟩

theorem Tunnel.finish : state.finish.Books where
  recorded totals hrecorded := by
    rw [← End.recorded.inj hrecorded]
    exact funext fun direction => (htunnel.report direction).1
  lost hlost := by simp at hlost
  whole := htunnel.whole
  rawWhole := by
    change Whole state.rawTrace
    rw [htunnel.rawTrace]
    exact whole_nil

theorem Tunnel.again : state.again.Books := by
  rw [VisionRelay.again]
  split
  · exact htunnel.finish
  · exact { htunnel with }

theorem Tunnel.lose (hevents : Whole events) : ((state.emit events).lose).Books where
  recorded totals hrecorded := by simp at hrecorded
  lost _ := htunnel.rawTrace
  whole := htunnel.whole.append hevents
  rawWhole := by
    change Whole state.rawTrace
    rw [htunnel.rawTrace]
    exact whole_nil

theorem Tunnel.drop : state.lose.Books := by simpa [VisionRelay.emit] using htunnel.lose whole_nil

theorem Tunnel.relayChunk (held : Bool)
    (direction : Direction) (bytes : Nat) (granted written : Bool) :
    (state.relayChunk held direction bytes granted written).Books := by
  rw [VisionRelay.relayChunk]
  split
  · exact again { htunnel.emit (quiet_refused direction bytes) with }
  split
  · apply again
    refine ⟨htunnel.counts.count (fun other => ?_) (by simp), htunnel.fresh, htunnel.rawTrace,
      htunnel.whole.append (whole_chunk held direction bytes (.inl rfl))⟩
    rw [bytesOf_chunkEvents, Write.accepted]
  · exact htunnel.lose (whole_chunk held direction bytes (.inr rfl))

theorem Tunnel.settle (rawReady drained : Bool) : (state.settle rawReady drained).Books := by
  rw [VisionRelay.settle]
  split
  · refine ⟨fun direction => ?_, fun direction => ?_, htunnel.whole, ?_⟩
    · obtain ⟨hrecorded, hpending⟩ := htunnel.report direction
      dsimp only
      rw [hrecorded, hpending]
      rfl
    · exact ((htunnel.report direction).2).trans_lt asyncTrafficFlushBytes_pos
    · change Whole state.rawTrace
      rw [htunnel.rawTrace]
      exact whole_nil
  split
  · exact htunnel.finish
  · exact { htunnel with }

theorem Tunnel.decodeStep (held granted written rawReady drained : Bool) :
    (state.decodeStep held granted written rawReady drained).Books := by
  rw [VisionRelay.decodeStep]
  split
  · exact htunnel.settle rawReady drained
  split
  · exact htunnel.drop
  · dsimp only
    split
    · exact again { htunnel with }
    · apply settle
      exact { htunnel with }
  · apply relayChunk
    exact { htunnel with }

theorem Tunnel.headStep (held revoked granted written rawReady drained : Bool) :
    (state.headStep held revoked granted written rawReady drained).Books := by
  rw [VisionRelay.headStep]
  split
  · exact (htunnel.emit (quiet_checked true)).finish
  · apply decodeStep
    apply htunnel.emit
    split
    · exact quiet_checked false
    · exact quiet_nil

theorem Tunnel.clientStep (held : Bool) (read : SocketRead) (granted written : Bool) :
    (state.clientStep held read granted written).Books := by
  unfold VisionRelay.clientStep
  split
  · exact again { htunnel with }
  · split
    · exact htunnel.relayChunk held .upload _ granted written
    · exact again { htunnel with }
  · split
    · exact again { htunnel with }
    · exact htunnel.drop

theorem Tunnel.remoteStep (held : Bool)
    (read : SocketRead) (granted written : Bool) (draw : PaddingDraw) :
    (state.remoteStep held read granted written draw).Books := by
  unfold VisionRelay.remoteStep
  split
  · exact again { htunnel with }
  · apply relayChunk
    exact { htunnel with }
  · split
    · exact again { htunnel with }
    · exact htunnel.drop

end

section

variable (hflushing : state.Flushing)

include hflushing

theorem Flushing.rawFinish : state.rawFinish.Books where
  recorded totals hrecorded := by
    rw [← End.recorded.inj hrecorded]
    funext direction
    have hpending : (state.flush direction).pending ≤ u64Max :=
      (hflushing.pending direction).le.trans (by decide)
    rw [(TrafficFlush.add_zero hpending).2]
    exact hflushing.due direction
  lost hlost := by simp at hlost
  whole := hflushing.whole
  rawWhole := hflushing.rawWhole

theorem Flushing.rawEmit (hwhole : Whole events)
    (hnone : ∀ direction, accepted direction events = 0) : (state.rawEmit events).Flushing where
  due direction := by
    rw [VisionRelay.due]
    change _ = _ + bytesOf Write.accepted direction (state.rawTrace ++ events)
    rw [bytesOf_append]
    change _ = _ + (_ + accepted direction events)
    rw [hnone, Nat.add_zero]
    exact hflushing.due direction
  pending := hflushing.pending
  whole := hflushing.whole
  rawWhole := hflushing.rawWhole.append hwhole

theorem Flushing.rawQuiet (hquiet : Quiet events) : (state.rawEmit events).Flushing :=
  hflushing.rawEmit (whole_quiet hquiet) fun _ => bytesOf_quiet _ _ hquiet

theorem Flushing.rawAdd {direction : Direction}
    (hbytes : bytes ≤ vlessAsyncRelayBufferSize) (hwhole : Whole events)
    (hevents : ∀ other, accepted other events = if direction = other then bytes else 0) :
    ((state.rawEmit events).rawAdd direction bytes).Flushing := by
  obtain ⟨htotal, hpending⟩ := TrafficFlush.add_total (hflushing.pending direction) hbytes
  refine ⟨fun other => ?_, fun other => ?_, hflushing.whole, hflushing.rawWhole.append hwhole⟩
  · have hdue : ((state.rawEmit events).rawAdd direction bytes).due other =
        state.due other + if direction = other then bytes else 0 := by
      rw [← hevents other, VisionRelay.due, VisionRelay.due, Nat.add_assoc]
      exact congrArg _ (bytesOf_append _ _ _ _)
    rw [hdue, ← hflushing.due other]
    by_cases hother : direction = other
    · subst hother
      rw [if_pos rfl, ← htotal]
      simp [VisionRelay.rawAdd, VisionRelay.rawEmit]
    · rw [if_neg hother]
      simp [VisionRelay.rawAdd, VisionRelay.rawEmit, Function.update_of_ne (Ne.symm hother)]
  · by_cases hother : direction = other
    · subst hother
      simpa [VisionRelay.rawAdd, VisionRelay.rawEmit] using hpending
    · simpa [VisionRelay.rawAdd, VisionRelay.rawEmit,
        Function.update_of_ne (Ne.symm hother)] using hflushing.pending other

theorem Flushing.rawStep (hphase : state.phase = .raw) (held : Bool) (direction : Direction)
    (read : Read) (granted written : Bool) :
    (state.rawStep held direction read granted written).Books := by
  have hbooks {state : VisionRelay} (hphase : state.phase = .raw)
      (hflushing : state.Flushing) : state.Books := by
    rw [Books, hphase]
    exact hflushing
  unfold VisionRelay.rawStep
  split
  · have hflushed : ((state.rawEmit []).rawAdd direction 0).Flushing :=
      hflushing.rawAdd (Nat.zero_le _) whole_nil fun _ => (ite_self _).symm
    rw [VisionRelay.rawEmit, List.append_nil] at hflushed
    rw [rawAgain]
    split
    · exact rawFinish { hflushed with }
    · exact hbooks hphase { hflushed with }
  · dsimp only
    split
    · exact (hflushing.rawQuiet (quiet_refused _ _)).rawFinish
    split
    · refine hbooks hphase (hflushing.rawAdd (Nat.min_le_right _ _)
        (whole_chunk held direction _ (.inl rfl)) fun other => ?_)
      exact bytesOf_chunkEvents _ _ _ _ _ _
    · refine (hflushing.rawEmit (whole_chunk held direction _ (.inr rfl)) fun other => ?_).rawFinish
      rw [accepted, bytesOf_chunkEvents, Write.accepted, ite_self]
  · exact hbooks hphase hflushing
  · exact hflushing.rawFinish

end

theorem Closed.recorded_iff {clean : Prop}
    (hclosed : state.Closed result) (hlost : result = .lost ↔ ¬ clean) :
    (∀ direction, result.bytes direction = completed direction state.trace +
          completed direction state.rawTrace) ↔ Accountable u64Max clean state.trace := by
  cases result with
  | recorded totals =>
    have hclean : clean := by
      by_contra hnot
      exact absurd (hlost.2 hnot) (by simp)
    rw [hclosed.recorded totals rfl]
    constructor
    · intro hequal
      refine ⟨fun _ direction => ?_, fun hnot => absurd hclean hnot⟩
      have hsum := hequal direction
      rw [End.bytes, VisionRelay.due, hclosed.rawWhole direction] at hsum
      exact (Nat.add_right_cancel hsum).symm
    · rintro ⟨hall, -⟩ direction
      rw [hall hclean direction, hclosed.rawWhole direction]
      rfl
  | lost =>
    have hnot : ¬ clean := hlost.1 rfl
    have hraw : ∀ direction : Direction, completed direction state.rawTrace = 0 := by
      rw [hclosed.lost rfl]
      exact fun _ => rfl
    constructor
    · intro hequal
      refine ⟨fun hclean => absurd hclean hnot, fun _ direction => ?_⟩
      have hsum := hequal direction
      rw [hraw, Nat.add_zero] at hsum
      exact hsum.symm
    · rintro ⟨-, hnone⟩ direction
      rw [hnone hnot direction, hraw]
      rfl

def ChunkFails (held granted written : Bool) : Prop :=
  (held = true → granted = true) ∧ written = false

theorem finish_not_lost : state.finish.phase ≠ .ended .lost := by simp [finish]

theorem again_not_lost : state.again.phase ≠ .ended .lost := by
  rw [VisionRelay.again]
  split
  · exact finish_not_lost
  · simp

theorem settle_not_lost (rawReady drained : Bool) :
    (state.settle rawReady drained).phase ≠ .ended .lost := by
  rw [VisionRelay.settle]
  split
  · simp
  split
  · exact finish_not_lost
  · simp

open VisionRelay

theorem relayChunk_lost_iff (held : Bool) (direction : Direction)
    (bytes : Nat) (granted written : Bool) :
    (state.relayChunk held direction bytes granted written).phase =
        .ended .lost ↔ ChunkFails held granted written := by
  rw [relayChunk, ChunkFails]
  split
  next hrefused => simp_all [again_not_lost]
  split
  next hwritten => simp [again_not_lost, hwritten]
  next hgranted hwritten => simp_all [lose]

/-- The decoder's turn: the frame is malformed, or its content cannot be
written. -/
def DecodeFails (held granted written : Bool) (state : VisionRelay) : Prop :=
  state.uploadDone = false ∧ state.uplinkDirect = false ∧
    match (state.decoder.readDecoded visionBuffer).2 with
    | .error _ => True
    | .ok bytes => bytes ≠ [] ∧ ChunkFails held granted written

theorem decodeStep_lost_iff (held granted written rawReady drained : Bool) :
    (state.decodeStep held granted written rawReady drained).phase =
        .ended .lost ↔ state.DecodeFails held granted written := by
  rw [decodeStep, DecodeFails]
  split
  next hover =>
    simp only [settle_not_lost, false_iff]
    rintro ⟨hupload, huplink, -⟩
    simp [hupload, huplink] at hover
  next hgoing =>
    obtain ⟨hupload, huplink⟩ : state.uploadDone = false ∧
        state.uplinkDirect = false := by simpa using hgoing
    simp only [hupload, huplink, true_and]
    split
    next herror => simp [herror, lose]
    next hnone =>
      simp only [hnone, ne_eq, not_true_eq_false, false_and, iff_false]
      split
      · exact again_not_lost
      · exact settle_not_lost _ _
    next hsome => simp [hsome, relayChunk_lost_iff]

theorem headStep_lost_iff (held revoked granted written rawReady drained : Bool) :
    (state.headStep held revoked granted written rawReady drained).phase = .ended .lost ↔
      (held = true → revoked = false) ∧ state.DecodeFails held granted written := by
  rw [headStep]
  split
  next hrevoked =>
    simp only [finish_not_lost, false_iff]
    rintro ⟨hlive, -⟩
    simp_all
  next hlive =>
    have hlive : held = true → revoked = false := by simpa using hlive
    rw [decodeStep_lost_iff, DecodeFails, DecodeFails]
    exact ⟨fun hfails => ⟨hlive, hfails⟩, fun hfails => hfails.2⟩

def ReadFails (held granted written direct : Bool) : SocketRead → Prop
  | .got bytes => bytes ≠ [] ∧ direct = true ∧ ChunkFails held granted written
  | .failed error => error.isStreamClosed = false

theorem clientStep_lost_iff (held : Bool) (read : SocketRead) (granted written : Bool) :
    (state.clientStep held read granted written).phase = .ended .lost ↔
      ReadFails held granted written state.uplinkDirect read := by
  unfold clientStep
  split
  · simp [again_not_lost, ReadFails]
  · dsimp only
    split
    next hdir => simp [relayChunk_lost_iff, ReadFails, hdir]
    next hframes => simp [again_not_lost, ReadFails, hframes]
  · split
    next hclosed => simp [again_not_lost, ReadFails, hclosed]
    next hopen => simp [lose, ReadFails, hopen]

theorem remoteStep_lost_iff (held : Bool) (read : SocketRead)
    (granted written : Bool) (draw : PaddingDraw) :
    (state.remoteStep held read granted written draw).phase =
        .ended .lost ↔ ReadFails held granted written true read := by
  unfold remoteStep
  split
  · simp [again_not_lost, ReadFails]
  · simp [relayChunk_lost_iff, ReadFails]
  · split
    next hclosed => simp [again_not_lost, ReadFails, hclosed]
    next hopen => simp [lose, ReadFails, hopen]

theorem rawStep_not_lost (hphase : state.phase = .raw) (held : Bool)
    (direction : Direction) (read : Read) (granted written : Bool) :
    (state.rawStep held direction read granted written).phase ≠ .ended .lost := by
  unfold rawStep
  split
  · rw [rawAgain]
    split
    · simp [rawFinish]
    · simp [rawAdd, hphase]
  · dsimp only
    split
    · simp [rawFinish]
    split
    · simp [rawAdd, rawEmit, hphase]
    · simp [rawFinish]
  · simp [hphase]
  · simp [rawFinish]

end VisionRelay

section Run

variable (held : Bool)

open VisionRelay

/-- In this state the next step leaves by an error. -/
def VisionFails (state : VisionRelay) (input : VisionInput) : Prop :=
  match state.phase, input with
  | .padding, .padded written => written = false
  | .head, .head revoked granted written _ _ =>
    (held = true → revoked = false) ∧ state.DecodeFails held granted written
  | .select, .client read granted written =>
    state.uploadDone = false ∧ ReadFails held granted written state.uplinkDirect read
  | .select, .remote read granted written _ =>
    state.downloadDone = false ∧ ReadFails held granted written true read
  | _, _ => False

variable {state : VisionRelay}

theorem visionStep_lost_iff (hrun : state.phase ≠ .ended .lost) (input : VisionInput) :
    (visionStep held state input).phase = .ended .lost ↔ VisionFails held state input := by
  unfold visionStep VisionFails
  split
  case h_1 written hphase =>
      simp only [hphase]
      split
      next hwritten => simp [hwritten]
      next hfailed => simp [lose, hfailed]
  case h_2 revoked granted written rawReady drained hphase =>
      simp only [hphase]
      exact headStep_lost_iff held revoked granted written rawReady drained
  case h_3 read granted written hphase =>
      simp only [hphase]
      split
      next hdone => simp [hphase, hdone]
      next hgoing => simp [clientStep_lost_iff, hgoing]
  case h_4 read granted written draw hphase =>
      simp only [hphase]
      split
      next hdone => simp [hphase, hdone]
      next hgoing => simp [remoteStep_lost_iff, hgoing]
  case h_5 hphase =>
      simp only [hphase, iff_false]
      split
      · exact finish_not_lost
      · exact hrun
  case h_6 direction read granted written hphase =>
      simp only [hphase, iff_false]
      split
      · exact hrun
      · exact rawStep_not_lost hphase held direction read granted written
  case h_7 hphase =>
      simp only [hphase, iff_false]
      split
      · simp [rawFinish]
      · exact hrun
  case h_8 hphase =>
      simp only [hphase, iff_false]
      split
      · simp [rawFinish]
      · exact hrun
  case h_9 hpadding hhead hclient hremote _ _ _ _ =>
      refine iff_of_false hrun fun hfails => ?_
      split at hfails
      · exact hpadding _ ‹_› rfl
      · exact hhead _ _ _ _ _ ‹_› rfl
      · exact hclient _ _ _ ‹_› rfl
      · exact hremote _ _ _ _ ‹_› rfl
      · exact hfails

theorem visionStep_books (hbooks : state.Books)
    (input : VisionInput) : (visionStep held state input).Books := by
  have hsame := hbooks
  unfold visionStep
  rw [Books] at hbooks
  split
  case h_1 written hphase =>
      simp only [hphase] at hbooks
      split
      · exact { hbooks with }
      · exact hbooks.drop
  case h_2 revoked granted written rawReady drained hphase =>
      simp only [hphase] at hbooks
      exact hbooks.headStep held revoked granted written rawReady drained
  case h_3 read granted written hphase =>
      simp only [hphase] at hbooks
      split
      · exact hsame
      · exact hbooks.clientStep held read granted written
  case h_4 read granted written draw hphase =>
      simp only [hphase] at hbooks
      split
      · exact hsame
      · exact hbooks.remoteStep held read granted written draw
  case h_5 hphase =>
      simp only [hphase] at hbooks
      split
      · exact hbooks.finish
      · exact hsame
  case h_6 direction read granted written hphase =>
      simp only [hphase] at hbooks
      split
      · exact hsame
      · exact hbooks.rawStep hphase held direction read granted written
  case h_7 hphase =>
      simp only [hphase] at hbooks
      split
      · exact (hbooks.rawQuiet (quiet_checked true)).rawFinish
      · exact hsame
  case h_8 hphase =>
      simp only [hphase] at hbooks
      split
      · exact hbooks.rawFinish
      · exact hsame
  case h_9 => exact hsame

variable (userId : VisionUserId) (writeInitialPadding : Bool)
  (draw : PaddingDraw)

theorem visionStart_books : (visionStart userId writeInitialPadding draw).Books := by
  rw [visionStart]
  split <;> exact ⟨counts_start u64Max, rfl, rfl, whole_nil⟩

theorem visionStart_not_lost :
    (visionStart userId writeInitialPadding draw).phase ≠ .ended .lost := by
  rw [visionStart]
  split <;> simp

theorem visionRun_books (inputs : List VisionInput) :
    (visionRun held userId writeInitialPadding draw inputs).Books :=
  @Run.exec_always _ _ (visionStep held) Books
    (fun _ input hbooks => visionStep_books held hbooks input) _
    (visionStart_books userId writeInitialPadding draw) inputs

/-- A run loses its totals just if one of its steps fails. -/
theorem visionRun_lost_iff (inputs : List VisionInput) :
    (visionRun held userId writeInitialPadding draw inputs).phase = .ended .lost ↔
      ¬ Run.Meets (visionStep held) (fun state input => ¬ VisionFails held state input)
        (visionStart userId writeInitialPadding draw) inputs := by
  refine @Run.exec_bad_iff _ _ (visionStep held) _ (fun state => state.phase ≠ .ended .lost)
    (fun state => state.phase = .ended .lost) ?_ ?_ ?_ ?_ _ ?_ inputs
  · exact fun state hrun => hrun
  · exact fun state input hrun hmeets hlost =>
      hmeets ((visionStep_lost_iff held hrun input).1 hlost)
  · exact fun state input hrun hfails =>
      (visionStep_lost_iff held hrun input).2 (not_not.1 hfails)
  · intro state input hlost
    simp [visionStep, hlost]
  · exact visionStart_not_lost userId writeInitialPadding draw

/-- No step of the tunnel fails, and no counter is full, or a step fails before
any byte is written. -/
def VisionAccountable (inputs : List VisionInput) : Prop :=
  Accountable u64Max (Run.Meets (visionStep held)
      (fun state input => ¬ VisionFails held state input)
      (visionStart userId writeInitialPadding draw) inputs)
    (visionRun held userId writeInitialPadding draw inputs).trace

/-- When the Vision relay has returned, what it recorded is what its writers
took, in the tunnel and after it, just if the tunnel was accountable. -/
theorem visionRun_recorded_iff {inputs : List VisionInput}
    (hended : (visionRun held userId writeInitialPadding draw inputs).phase = .ended result) :
    (∀ direction, result.bytes direction = completed direction
          (visionRun held userId writeInitialPadding draw inputs).trace + completed direction
          (visionRun held userId writeInitialPadding draw inputs).rawTrace) ↔
      VisionAccountable held userId writeInitialPadding draw inputs := by
  have hbooks := visionRun_books held userId writeInitialPadding draw inputs
  have hlost := visionRun_lost_iff held userId writeInitialPadding draw inputs
  rw [Books, hended] at hbooks
  rw [hended, VisionPhase.ended.injEq] at hlost
  exact hbooks.recorded_iff hlost

end Run

end KeliCore
