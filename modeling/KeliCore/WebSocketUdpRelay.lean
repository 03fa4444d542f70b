/-
UDP over a plain WebSocket in Trojan.  The main loop sends replies to the
client, a worker sends the client's packets; a flag tells either that the other
has ended.
-/
import KeliCore.Run

namespace KeliCore

/-- What `recv_available` gives the main loop, and how its write goes. -/
inductive WebSocketReceived where
  | failed
  | nothing
  | packet (payload : UInt64) (written : Bool)

/-- What `send_udp_packet` gives the worker, and how its write of a reply goes. -/
inductive WebSocketSent where
  | failed
  | sent (bytes : UInt64)
  | replied (bytes payload : UInt64) (written : Bool)

inductive WebSocketUdpEvent where
  /-- a frame of the client, which holds a packet or is malformed -/
  | arrives (packet : Bool)
  | hangsUp
  /-- the condition of the main loop -/
  | check
  | receive (received : WebSocketReceived)
  | join
  /-- a turn of the worker -/
  | upload (sent : WebSocketSent)

inductive WebSocketMain where
  | checking
  | receiving
  | joining
  | ended
deriving DecidableEq

structure WebSocketUdpRelay where
  stop : Bool := false
  main : WebSocketMain := .checking
  uploading : Bool := true
  /-- the connection was shut down, by the client or by either side -/
  closed : Bool := false
  frames : List Bool := []
  upload : UInt64 := 0
  download : UInt64 := 0
  recorded : List (UInt64 × UInt64) := []

namespace WebSocketUdpRelay

open Run

variable (relay : WebSocketUdpRelay)

def addUpload (bytes : UInt64) : WebSocketUdpRelay :=
  { relay with upload := relay.upload + bytes }

def addDownload (bytes : UInt64) : WebSocketUdpRelay :=
  { relay with download := relay.download + bytes }

/-- The main loop is left, and the writer is shut down. -/
def leave : WebSocketUdpRelay :=
  { relay with main := .joining, closed := true }

/-- A turn of the inner loop of `relay_udp_plain_websocket`. -/
def receive : WebSocketReceived → WebSocketUdpRelay
  -- `recv_available()?` returns at once
  | .failed => { relay with main := .ended }
  | .nothing => if relay.stop then relay.leave else { relay with main := .checking }
  | .packet payload true => relay.addDownload payload
  | .packet _ false => { relay with stop := true }.leave

/-- The worker leaves its loop. -/
def uploadEnds : WebSocketUdpRelay :=
  { relay with stop := true, uploading := false, closed := true }

/-- A turn of the loop of `relay_udp_plain_websocket_upload`. -/
def uploadTurn (sent : WebSocketSent) : WebSocketUdpRelay :=
  match relay.frames with
  | [] => if relay.closed then relay.uploadEnds else relay
  | false :: _ => relay.uploadEnds
  | true :: frames =>
    let relay := { relay with frames }
    match sent with
    | .failed => relay.uploadEnds
    | .sent bytes => relay.addUpload bytes
    | .replied bytes payload true => (relay.addUpload bytes).addDownload payload
    -- `write_all(&packet)?` returns at once
    | .replied bytes _ false => { relay.addUpload bytes with uploading := false }

def step : WebSocketUdpEvent → WebSocketUdpRelay
  | .arrives packet =>
    if relay.closed then relay else { relay with frames := relay.frames ++ [packet] }
  | .hangsUp => { relay with closed := true }
  | .check =>
    if relay.main ≠ .checking then relay
    else if relay.stop then relay.leave
    else { relay with main := .receiving }
  | .receive received => if relay.main = .receiving then relay.receive received else relay
  | .join =>
    if relay.main = .joining ∧ relay.uploading = false then
      { relay with main := .ended, recorded := relay.recorded ++ [(relay.upload, relay.download)] }
    else relay
  | .upload sent => if relay.uploading then relay.uploadTurn sent else relay

/-- The main loop has been left. -/
def Left : Prop :=
  relay.main = .joining ∨ relay.main = .ended

/-- No receive fails, and no write of the worker's replies before the flag is
set. -/
def Handled : WebSocketUdpEvent → Prop
  | .receive .failed => relay.main ≠ .receiving
  | .upload (.replied _ _ false) =>
    relay.stop = true ∨ relay.uploading = false ∨ relay.frames.head? ≠ some true
  | _ => True

/-- Either side's end sets the flag, the connection is shut down before the
worker is joined, and the traffic is recorded after that. -/
structure Aligned : Prop where
  stopped : relay.uploading = false ∨ relay.Left → relay.stop = true
  closed : relay.Left → relay.closed = true
  joined : relay.main = .ended → relay.uploading = false
  recorded : relay.recorded = if relay.main = .ended then [(relay.upload, relay.download)] else []

/-- Each side's end is seen by the other: by the main loop when it next looks
at the flag, by the worker when it has taken the frames it still holds. -/
structure Orderly : Prop extends Aligned relay where
  main_leaves : relay.uploading = false → (exec step relay [.receive .nothing, .check]).Left
  upload_ends : relay.Left → ∀ turns : List WebSocketSent, relay.frames.length < turns.length →
    (exec step relay (turns.map .upload)).uploading = false

variable {relay}

/-- On a closed connection every turn of the worker takes a frame or is its
last. -/
theorem uploading_of_closed (hclosed : relay.closed = true) {turns : List WebSocketSent}
    (hturns : relay.uploading = true → relay.frames.length < turns.length) :
    (exec step relay (turns.map .upload)).uploading = false := by
  induction turns generalizing relay with
  | nil => simpa using hturns
  | cons sent turns ih =>
    obtain ⟨stop, main, uploading, closed, frames, upload, download, recorded⟩ := relay
    apply ih <;> grind [step, uploadTurn, uploadEnds, addUpload, addDownload]

theorem Aligned.orderly (halign : relay.Aligned) : relay.Orderly := by
  refine ⟨halign, fun hended => ?_, fun hleft turns hturns => ?_⟩
  · have hstop := halign.stopped (.inl hended)
    cases hmain : relay.main <;> simp [step, receive, leave, Left, hmain, hstop]
  · exact uploading_of_closed (halign.closed hleft) fun _ => hturns

theorem uploadTurn_keeps (sent : WebSocketSent) : (relay.uploadTurn sent).main = relay.main ∧
    (relay.uploadTurn sent).recorded = relay.recorded ∧
    (relay.stop = true → (relay.uploadTurn sent).stop = true) ∧
    (relay.closed = true → (relay.uploadTurn sent).closed = true) := by
  unfold uploadTurn
  repeat' split
  all_goals simp_all [uploadEnds, addUpload, addDownload]

/-- Every way out of the worker's loop but one sets the flag. -/
theorem stop_uploadTurn {sent : WebSocketSent} (hup : relay.uploading = true)
    (hhandled : relay.Handled (.upload sent)) (hended : (relay.uploadTurn sent).uploading = false) :
    (relay.uploadTurn sent).stop = true := by
  unfold uploadTurn at hended ⊢
  repeat' split
  all_goals simp_all [uploadEnds, addUpload, addDownload, Handled]

variable {event : WebSocketUdpEvent}

theorem Aligned.step (halign : relay.Aligned)
    (hhandled : relay.Handled event) : (relay.step event).Aligned := by
  obtain ⟨hstopped, hclosed, hjoined, hrecorded⟩ := halign
  cases event with
  | arrives | hangsUp | join => constructor <;> grind [WebSocketUdpRelay.step, Left]
  | check => constructor <;> grind [WebSocketUdpRelay.step, leave, Left]
  | receive received =>
    rcases received with - | - | ⟨payload, - | -⟩ <;> constructor <;>
      grind [WebSocketUdpRelay.step, receive, leave, addDownload, Handled, Left]
  | upload sent =>
    rw [WebSocketUdpRelay.step]
    split
    next hup =>
      obtain ⟨hmain, hrecord, hstop, hclose⟩ := @uploadTurn_keeps relay sent
      have hleft : (relay.uploadTurn sent).Left ↔ relay.Left := by rw [Left, Left, hmain]
      have hrun : relay.main ≠ .ended := fun hended => by simp [hjoined hended] at hup
      constructor
      · rintro (hended | hout)
        · exact stop_uploadTurn hup hhandled hended
        · exact hstop (hstopped (.inr (hleft.1 hout)))
      · exact fun hout => hclose (hclosed (hleft.1 hout))
      · exact fun hended => absurd (hmain.symm.trans hended) hrun
      · rw [hrecord, hmain, hrecorded, if_neg hrun, if_neg hrun]
    · exact ⟨hstopped, hclosed, hjoined, hrecorded⟩

/-- A step that is not handled lets one side end with the flag unset or nothing
recorded. -/
theorem Aligned.not_step (halign : relay.Aligned)
    (hunhandled : ¬ relay.Handled event) : ¬ (relay.step event).Aligned := by
  rintro ⟨hstopped, -, -, hrecorded⟩
  have hnone := halign.recorded
  unfold Handled at hunhandled
  split at hunhandled
  · grind [WebSocketUdpRelay.step, receive]
  · grind [WebSocketUdpRelay.step, uploadTurn, addUpload]
  · exact hunhandled trivial

/-- The relay's sides end together, with one record, in the runs in which no
receive fails and no reply of the worker is lost before the flag is set, and in
no others. -/
theorem orderly_iff_handled (events : List WebSocketUdpEvent) :
    Meets step Handled {} events ↔ ∀ past, past <+: events → (exec step {} past).Orderly := by
  refine meets_iff_always (fun relay (h : Aligned relay) => h.orderly)
    (fun relay event halign => halign.step) ?_ (by constructor <;> simp [Left]) events
  intro relay event halign hunhandled horderly
  exact halign.not_step hunhandled horderly.toAligned

/-- A receive that fails leaves the worker looping and nothing recorded; a reply
that the worker cannot write leaves the main loop looping. -/
theorem sides_left_looping :
    (let relay := exec step {} [.check, .receive .failed, .arrives true, .upload (.sent 5)]
    relay.main = .ended ∧ relay.stop = false ∧ relay.uploading = true ∧ relay.recorded = []) ∧
    let relay := exec step {} [.arrives true, .upload (.replied 5 7 false), .check,
      .receive .nothing, .check]
    relay.uploading = false ∧ relay.stop = false ∧ relay.main = .receiving := by decide +kernel

end WebSocketUdpRelay

end KeliCore
