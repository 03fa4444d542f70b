/-
What is recorded for a user when a stream relay returns, against what its
writers took; and, under a speed limit, in which runs every chunk was paid for
before it was written.
-/
import KeliCore.AnyTlsStreams
import KeliCore.CopyAccounts
import KeliCore.PollAccounts
import KeliCore.VisionAccounts

namespace KeliCore

open Relaying

/-- The bytes recorded are the bytes that were completely written. -/
def Billed (result : End Direction) (trace : List (RelayEvent Direction)) : Prop :=
  ∀ direction, result.bytes direction = completed direction trace

/-- When a stream relay returns, the user is billed for what was written just
if the run is accountable: if no step fails, no write is short and no counter
is full, or a step fails before any byte is written. -/
theorem billed_iff_accountable (held : Bool) : (∀ security options inputs result,
      (pollRun (relaySingleIo security options) held inputs).phase = .ended result →
      (Billed result (pollRun (relaySingleIo security options) held inputs).trace ↔
        PollAccountable (relaySingleIo security options) held inputs)) ∧
    (∀ inputs result, (pollRun relayTlsStream held inputs).phase = .ended result →
      (Billed result (pollRun relayTlsStream held inputs).trace ↔
        PollAccountable relayTlsStream held inputs)) ∧
    (∀ userId writeInitialPadding draw inputs result,
      (visionRun held userId writeInitialPadding draw inputs).phase = .ended result →
      (Billed result ((visionRun held userId writeInitialPadding draw inputs).trace ++
            (visionRun held userId writeInitialPadding draw inputs).rawTrace) ↔
        VisionAccountable held userId writeInitialPadding draw inputs)) ∧
    ∀ inputs result, (copyRun relayStreams held inputs).ended = some result →
      (Billed result (copyRun relayStreams held inputs).trace ↔
        CopyAccountable relayStreams held inputs) := by
  refine ⟨fun security options inputs result hended => ?_, fun inputs result hended => ?_,
    fun userId writeInitialPadding draw inputs result hended => ?_, fun inputs result hended => ?_⟩
  · exact pollRun_recorded_iff _ held hended
  · exact pollRun_recorded_iff _ held hended
  · rw [Billed]
    simp only [completed, bytesOf_append]
    exact visionRun_recorded_iff held userId writeInitialPadding draw hended
  · exact copyRun_recorded_iff _ held hended

namespace Sample

/-- Three bytes reach the client, then both ends close. -/
def servedPoll : List PollInput :=
  [.head false false, .client .blocked true .all, .remote (.got 3) true .all,
    .head false false, .client (.got 0) true .all, .remote (.got 0) true .all]

/-- Three bytes reach the client, then a write to it fails. -/
def brokenPoll : List PollInput :=
  [.head false false, .client .blocked true .all, .remote (.got 3) true .all,
    .head false false, .client .blocked true .all, .remote (.got 2) true .failed]

def brokenCopy : List CopyInput :=
  [.read .download (.got 3), .written .download true, .read .upload .failed]

def noPadding : PaddingDraw := ⟨0, fun _ => 0⟩

def visionUser : VisionUserId := ⟨List.replicate 16 7, by decide⟩

def brokenVision : List VisionInput :=
  [.head false true true false false, .remote (.got [1, 2, 3]) true true noPadding,
    .head false true true false false, .remote (.got [4, 5]) true false noPadding]

end Sample

/-- Both ends close, and the three bytes are recorded. -/
theorem billed_both_closed :
    PollAccountable (relaySingleIo .aes128Gcm 1) true Sample.servedPoll := by
  have hended : (pollRun (relaySingleIo .aes128Gcm 1) true
      Sample.servedPoll).phase = .ended (.recorded (pollRun (relaySingleIo .aes128Gcm 1) true
          Sample.servedPoll).totals) := rfl
  refine ((billed_iff_accountable true).1 _ _ _ _ hended).1 fun direction => ?_
  cases direction with
  | upload | download => rfl

/-- In each of the relays three bytes are written to the client, an error
follows, and nothing is recorded. -/
theorem totals_lost_after_error : (∃ result, (pollRun (relaySingleIo .aes128Gcm 1) false
        Sample.brokenPoll).phase = .ended result ∧
      completed .download (pollRun (relaySingleIo .aes128Gcm 1) false
        Sample.brokenPoll).trace = 3 ∧ result.bytes .download = 0) ∧
    (∃ result, (pollRun relayTlsStream false Sample.brokenPoll).phase = .ended result ∧
      completed .download (pollRun relayTlsStream false
        Sample.brokenPoll).trace = 3 ∧ result.bytes .download = 0) ∧
    (∃ result, (visionRun false Sample.visionUser false Sample.noPadding
        Sample.brokenVision).phase = .ended result ∧
      completed .download (visionRun false Sample.visionUser false
        Sample.noPadding Sample.brokenVision).trace = 3 ∧ result.bytes .download = 0) ∧
    ∃ result, (copyRun relayStreams false Sample.brokenCopy).ended = some result ∧
      completed .download (copyRun relayStreams false
        Sample.brokenCopy).trace = 3 ∧ result.bytes .download = 0 :=
  ⟨⟨.lost, rfl, rfl, rfl⟩, ⟨.lost, rfl, rfl, rfl⟩, ⟨.lost, rfl, rfl, rfl⟩, ⟨.lost, rfl, rfl, rfl⟩⟩

/-- At every moment the totals are the bytes of the writes that did not fail,
up to a full counter. -/
theorem totals_eq_accepted (held : Bool) (direction : Direction) :
    (∀ policy inputs, let state := pollRun policy held inputs
      state.totals direction = min (accepted direction state.trace) u64Max) ∧
    ∀ policy inputs, let state := copyRun policy held inputs
      state.totals direction = min (accepted direction state.trace) u64Max :=
  ⟨fun _ _ => (pollRun_counts ..).counted _, fun _ _ => (copyRun_counts ..).counted _⟩

/-- With a limiter, each chunk of a run is written after a grant of its own,
and none after a report, just if no step of the run hands over an unpaid
chunk. -/
theorem metered_iff_paid (closePeerOnEof : Bool) : (∀ security options inputs,
      Metered (pollRun (relaySingleIo security options) true inputs).trace ↔
        Run.Meets (pollStep (relaySingleIo security options) true)
          (fun state input => ¬ PollUnpaid (relaySingleIo security options)
            true state input) {} inputs) ∧
    (∀ inputs, Metered (pollRun relayPlainWebsocket true inputs).trace ↔
        Run.Meets (pollStep relayPlainWebsocket true) (fun state input =>
            ¬ PollUnpaid relayPlainWebsocket true state input) {} inputs) ∧
    (∀ inputs, Metered (anyTlsRun true inputs).trace ↔
        Run.Meets (anyTlsStep true) (fun session input => ¬ AnyTlsUnpaid true session input) {}
          inputs) ∧
    ∀ inputs, Metered (copyRun (relayTcpBidirectional closePeerOnEof) true inputs).trace ↔
        Run.Meets (copyStep (relayTcpBidirectional closePeerOnEof) true)
          (fun state input => ¬ CopyUnpaid state input)
          (copyStart (relayTcpBidirectional closePeerOnEof) true) inputs :=
  ⟨fun _ _ => pollRun_metered_iff _, pollRun_metered_iff _,
    anyTlsRun_metered_iff, copyRun_metered_iff _⟩

namespace Sample

/-- The remote sends three bytes. -/
def oneReply : List PollInput :=
  [.head false false, .client .blocked true .all, .remote (.got 3) true .all]

/-- A stream is opened, and its remote sends three bytes. -/
def oneStream : List AnyTlsInput :=
  [.syn 1 (.stream true true 0 true true), .pump 0 (.got 3) true]

/-- The limiter is revoked and refuses a chunk of the client; the user is
added again, and it grants one of the remote. -/
def addedAgain : List CopyInput :=
  [.checked .upload false, .checked .download false, .read .upload (.got 2),
    .granted .upload false, .read .download (.got 3), .granted .download true]

end Sample

open Sample

/-- The remote's bytes are written without a grant by three of the relays, and
after a report by the fourth. -/
theorem download_is_not_metered :
    ¬ Metered (pollRun (relaySingleIo .aes128Gcm 1) true oneReply).trace ∧
    ¬ Metered (pollRun relayPlainWebsocket true oneReply).trace ∧
    ¬ Metered (anyTlsRun true oneStream).trace ∧
    ¬ Metered (copyRun (relayTcpBidirectional false) true addedAgain).trace := by
  decide +kernel

end KeliCore
