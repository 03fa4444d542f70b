/-
The bridge between a plain socket and an HTTP/2 request.  The relay hands what
it reads to a task over a channel; the task ends the request when the channel
is closed, and that is when the relay returns.
-/
import KeliCore.Run
import KeliCore.VisionRelay

namespace KeliCore

open Run

/-- A read of the response: `Http2ClientStream` fails only where it would
block, and gives nothing once its channel is closed. -/
inductive Http2Read where
  | got (written : Bool)
  | closed
  | wouldBlock
deriving DecidableEq

inductive Http2BridgeEvent where
  | upload (read : SocketRead)
  /-- a read of the response, and whether its bytes were written to the socket -/
  | download (read : Http2Read)
  /-- a turn of `write_h2_data` -/
  | send

/-- The locals of `relay_plain_to_http2`, what it has read, the channel and
what the task has put on the request stream. -/
structure Http2Bridge where
  uploadDone : Bool := false
  downloadDone : Bool := false
  returned : Bool := false
  read : List UInt8 := []
  channel : List (List UInt8) := []
  sent : List UInt8 := []
  endStream : Bool := false

namespace Http2Bridge

/-- The condition of the loop; the channel is closed on return. -/
def leave (bridge : Http2Bridge) : Http2Bridge :=
  { bridge with returned := bridge.uploadDone && bridge.downloadDone }

def step (bridge : Http2Bridge) : Http2BridgeEvent → Http2Bridge
  | .upload read =>
    if bridge.returned || bridge.uploadDone then bridge
    else
      match read with
      | .got [] => { bridge with uploadDone := true }.leave
      | .got bytes =>
        { bridge with read := bridge.read ++ bytes, channel := bridge.channel ++ [bytes] }
      | .failed error =>
        if error.kind = .wouldBlock then bridge else { bridge with uploadDone := true }.leave
  | .download read =>
    if bridge.returned || bridge.downloadDone then bridge
    else
      match read with
      | .got true | .wouldBlock => bridge
      -- `write_all_wait(..)?` returns
      | .got false => { bridge with returned := true }
      | .closed => { bridge with downloadDone := true }.leave
  | .send =>
    match bridge.channel with
    | payload :: channel => { bridge with channel, sent := bridge.sent ++ payload }
    | [] => if bridge.returned then { bridge with endStream := true } else bridge

/-- The task, if it takes enough turns from here on, sends all bytes and then
END_STREAM. -/
def Finishes (bridge : Http2Bridge) : Prop :=
  ∃ turns, let after := exec step bridge (List.replicate turns .send)
    after.sent = bridge.read ∧ after.endStream = true

/-- The server ends its response, or the socket takes no more of it. -/
def endsDownload : Http2BridgeEvent → Bool
  | .download .closed | .download (.got false) => true
  | _ => false

def closing (bridge : Http2Bridge) : Bool :=
  bridge.returned || bridge.downloadDone

/-- No byte is lost on the way, and the request is ended only after a return,
which comes when both directions are done. -/
structure Sound (bridge : Http2Bridge) : Prop where
  whole : bridge.sent ++ bridge.channel.flatten = bridge.read
  ended : bridge.endStream = true → bridge.returned = true
  both : bridge.uploadDone = true → bridge.downloadDone = true → bridge.returned = true

variable {bridge : Http2Bridge}

theorem Sound.step (hsound : bridge.Sound) (event : Http2BridgeEvent) :
    (bridge.step event).Sound := by
  obtain ⟨hwhole, hended, hboth⟩ := hsound
  unfold Http2Bridge.step
  repeat' split
  all_goals constructor <;> simp_all [leave, ← hwhole]

theorem closing_step (event : Http2BridgeEvent) :
    (bridge.step event).closing = (bridge.closing || endsDownload event) := by
  unfold step endsDownload
  repeat' split
  all_goals simp_all [leave, closing]

theorem closing_exec (events : List Http2BridgeEvent) :
    (exec step bridge events).closing = (bridge.closing || events.any endsDownload) := by
  induction events generalizing bridge with
  | nil => simp
  | cons event events ih => rw [exec_cons, ih, closing_step, List.any_cons, Bool.or_assoc]

/-- While the channel is open, the task does not end the request. -/
theorem endStream_sends (hopen : bridge.returned = false) (turns : Nat) :
    (exec step bridge (List.replicate turns .send)).endStream = bridge.endStream := by
  induction turns generalizing bridge with
  | zero => rfl
  | succ turns ih =>
    have hsend : (bridge.step .send).returned = false ∧
        (bridge.step .send).endStream = bridge.endStream := by
      cases hchannel : bridge.channel <;> simp [step, hchannel, hopen]
    rw [List.replicate_succ, exec_cons, ih hsend.1, hsend.2]

/-- On a closed channel the task sends what is left, and END_STREAM. -/
theorem sends (hreturned : bridge.returned = true) :
    exec step bridge (List.replicate (bridge.channel.length + 1) .send) = { bridge with
        channel := []
        sent := bridge.sent ++ bridge.channel.flatten
        endStream := true } := by
  obtain ⟨uploadDone, downloadDone, returned, read, channel, sent, endStream⟩ := bridge
  obtain rfl : returned = true := hreturned
  induction channel generalizing sent with
  | nil => simp [step]
  | cons payload channel ih => simpa [List.replicate_succ, step] using ih (sent ++ payload)

theorem Sound.finishes_iff (hsound : bridge.Sound) : bridge.Finishes ↔ bridge.returned = true := by
  constructor
  · rintro ⟨turns, -, hended⟩
    by_contra hopen
    rw [endStream_sends (eq_false_of_ne_true hopen)] at hended
    exact hopen (hsound.ended hended)
  · intro hreturned
    refine ⟨bridge.channel.length + 1, ?_⟩
    rw [sends hreturned]
    exact ⟨hsound.whole, rfl⟩

/-- After the end of the socket the request gets all bytes and END_STREAM if
and only if the download ends, too. -/
theorem half_close_iff (events : List Http2BridgeEvent) :
    let bridge := exec step {} events
    (bridge.uploadDone = true → bridge.Finishes) ↔
      (bridge.uploadDone = true → events.any endsDownload = true) := by
  intro bridge
  have hsound : bridge.Sound :=
    exec_always (fun _ event hsound => hsound.step event) (by constructor <;> simp) events
  have hclosing : bridge.closing = events.any endsDownload :=
    (closing_exec events).trans (Bool.false_or _)
  refine imp_congr_right fun hdone => ?_
  rw [hsound.finishes_iff, ← hclosing, closing, Bool.or_eq_true]
  exact ⟨.inl, fun h => h.elim id (hsound.both hdone)⟩

/-- The socket has ended, and the request stays open for as long as the server
does not end its response. -/
theorem request_stays_open :
    let bridge := exec step {} [.upload (.got [1, 2]), .upload (.got []), .send]
    bridge.uploadDone = true ∧ bridge.sent = bridge.read ∧ ¬ bridge.Finishes := by
  refine ⟨rfl, rfl, ?_⟩
  rintro ⟨turns, -, hended⟩
  rw [endStream_sends rfl] at hended
  contradiction

end Http2Bridge

end KeliCore
