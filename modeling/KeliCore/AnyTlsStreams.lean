/-
An AnyTLS session: one thread reads the client's frames and carries them to
the remotes of their streams, and each remote has a worker that pumps its bytes
back to the client.
-/
import KeliCore.Relaying
import KeliCore.Traffic

namespace KeliCore

open Relaying

inductive AnyTlsRemote where
  | tcp
  | udp
deriving DecidableEq

/-- What comes of a body that opens a stream. -/
inductive Opening where
  /-- There is no address in it. -/
  | malformed
  /-- The address asks for datagrams. -/
  | datagrams (acked : Bool)
  | stream (connected acked : Bool) (payload : Nat) (granted written : Bool)

inductive AnyTlsInput where
  /-- A frame that the server answers itself, if at all. -/
  | control (answered : Bool)
  | synEmpty (acked : Bool)
  | syn (streamId : UInt32) (opening : Opening)
  | psh (streamId : UInt32) (bytes : Nat) (granted written : Bool) (opening : Opening)
  /-- A packet that has come in over a stream of datagrams. -/
  | packet (streamId : UInt32) (bytes : Nat) (granted sent : Bool)
  | fin (streamId : UInt32)
  /-- The client's frames end, or one of them is not understood. -/
  | closed
  | pump (worker : Nat) (read : Read) (written : Bool)

structure AnyTlsSession where
  reading : Bool := true
  remotes : UInt32 → Option AnyTlsRemote := fun _ => none
  /-- The workers in the order of their start, and whether they still run. -/
  workers : List Bool := []
  trace : List (RelayEvent Direction) := []

namespace AnyTlsSession

def emit (session : AnyTlsSession) (events : List (RelayEvent Direction)) :
    AnyTlsSession :=
  { session with trace := session.trace ++ events }

/-- The remotes are shut down; the workers go on until they notice. -/
def leave (session : AnyTlsSession) : AnyTlsSession :=
  { session with reading := false, remotes := fun _ => none }

def insert (streamId : UInt32) (remote : AnyTlsRemote) (session : AnyTlsSession) : AnyTlsSession :=
  { session with
    remotes := Function.update session.remotes streamId (some remote) }

def remove (streamId : UInt32) (session : AnyTlsSession) : AnyTlsSession :=
  { session with remotes := Function.update session.remotes streamId none }

def spawn (session : AnyTlsSession) : AnyTlsSession :=
  { session with workers := session.workers ++ [true] }

def stop (worker : Nat) (session : AnyTlsSession) : AnyTlsSession :=
  { session with workers := session.workers.set worker false }

def runs (session : AnyTlsSession) (worker : Nat) : Bool :=
  session.workers.getD worker false

/-- A chunk for a remote; a write that fails ends the session. -/
def upload (held : Bool) (bytes : Nat) (written : Bool) (session : AnyTlsSession) : AnyTlsSession :=
  if written then session.emit (chunkEvents held .upload bytes .all)
  else (session.emit (chunkEvents held .upload bytes .failed)).leave

def openTcpRemote (held : Bool) (streamId : UInt32)
    (connected acked : Bool) (payload : Nat) (granted written : Bool)
    (session : AnyTlsSession) : AnyTlsSession :=
  if !connected then session.leave
  else
    let session := session.spawn.insert streamId .tcp
    if !acked then session.leave
    else if payload = 0 then session
    else if held && !granted then
      -- the stream stays open without what it was opened with
      session.emit [.waited .upload payload false]
    else session.upload held payload written

/-- What `handle_syn` and `handle_psh` do with an address. -/
def openRemote (held : Bool) (streamId : UInt32) (opening : Opening)
    (session : AnyTlsSession) : AnyTlsSession :=
  match opening with
  | .malformed => session.leave
  | .datagrams acked => if acked then session.insert streamId .udp else session.leave
  | .stream connected acked payload granted written =>
    session.openTcpRemote held streamId connected acked payload granted written

/-- `handle_psh`; the packets of a stream of datagrams are inputs of their
own. -/
def handlePsh (held : Bool) (streamId : UInt32) (bytes : Nat)
    (granted written : Bool) (opening : Opening) (session : AnyTlsSession) :
    AnyTlsSession :=
  if bytes = 0 then session
  else
    match session.remotes streamId with
    | some .tcp =>
      if held && !granted then
        (session.remove streamId).emit [.waited .upload bytes false]
      else session.upload held bytes written
    | some .udp => session
    | none => session.openRemote held streamId opening

/-- A turn of the loop of `handle_udp_psh`.  Of the limiter's answers only a
refusal is an event: what it grants is a packet, not a chunk. -/
def forwardUdpPacket (held : Bool) (streamId : UInt32) (bytes : Nat)
    (granted sent : Bool) (session : AnyTlsSession) : AnyTlsSession :=
  if session.remotes streamId = some .udp then
    if held && !granted then session.emit [.waited .upload bytes false]
    else if sent then session
    else session.leave
  else session

def pumpDownlink (worker : Nat) (read : Read) (written : Bool)
    (session : AnyTlsSession) : AnyTlsSession :=
  match read with
  | .got 0 => session.stop worker
  | .got (more + 1) =>
    if written then
      session.emit (chunkEvents false .download (more + 1) .all)
    else
      (session.emit (chunkEvents false .download (more + 1) .failed)).stop worker
  | .blocked => session
  | .failed => session.stop worker

/-- `read_frames` -/
def readFrame (held : Bool) (session : AnyTlsSession) : AnyTlsInput → AnyTlsSession
  | .control answered => if answered then session else session.leave
  | .synEmpty acked => if acked then session else session.leave
  | .syn streamId opening => session.openRemote held streamId opening
  | .psh streamId bytes granted written opening =>
    session.handlePsh held streamId bytes granted written opening
  | .packet streamId bytes granted sent => session.forwardUdpPacket held streamId bytes granted sent
  | .fin streamId => session.remove streamId
  | .closed => session.leave
  | .pump _ _ _ => session

end AnyTlsSession

section AnyTls

variable (held : Bool)

open AnyTlsSession

/-- One step of a session: of the thread that reads, or of a worker.  `held`
says whether there is a limiter. -/
def anyTlsStep (session : AnyTlsSession) (input : AnyTlsInput) :
    AnyTlsSession :=
  match input with
  | .pump worker read written =>
    if session.runs worker then session.pumpDownlink worker read written
    else session
  | frame => if session.reading then session.readFrame held frame else session

def anyTlsRun (inputs : List AnyTlsInput) : AnyTlsSession :=
  Run.exec (anyTlsStep held) {} inputs

/-- The chunk a stream is opened with, if it comes to be written. -/
def Opening.upload : Opening → Option Nat
  | .malformed => none
  | .datagrams _ => none
  | .stream connected acked payload granted _ =>
    if !connected then none
    else if !acked then none
    else if payload = 0 then none
    else if held && !granted then none
    else some payload

namespace AnyTlsSession

/-- The chunk the next step writes to a remote. -/
def uploads (session : AnyTlsSession) : AnyTlsInput → Option Nat
  | .syn _ opening => if session.reading then opening.upload held else none
  | .psh streamId bytes granted _ opening =>
    if session.reading then
      if bytes = 0 then none
      else
        match session.remotes streamId with
        | some .tcp => if held && !granted then none else some bytes
        | some .udp => none
        | none => opening.upload held
    else none
  | .control _ | .synEmpty _ | .packet _ _ _ _ | .fin _ | .closed
  | .pump _ _ _ => none

/-- The chunk the next step writes to the client. -/
def downloads (session : AnyTlsSession) : AnyTlsInput → Option Nat
  | .pump worker (.got (more + 1)) _ => if session.runs worker then some (more + 1) else none
  | _ => none

end AnyTlsSession

/-- Of a chunk, its events; of none, at most a word from the limiter. -/
def Hands (charges : Bool) (direction : Direction) (chunk : Option Nat)
    (before after : List (RelayEvent Direction)) : Prop :=
  ∃ events, after = before ++ events ∧
    match chunk with
    | some bytes => ∃ result, events = chunkEvents charges direction bytes result
    | none => Quiet events

variable {charges : Bool} {direction : Direction} {session : AnyTlsSession} {input : AnyTlsInput}

theorem hands_none (trace : List (RelayEvent Direction)) :
    Hands charges direction none trace trace :=
  ⟨[], (List.append_nil _).symm, quiet_nil⟩

theorem hands_refused (trace : List (RelayEvent Direction)) (bytes : Nat) :
    Hands charges direction none trace (trace ++ [.waited Direction.upload bytes false]) :=
  ⟨_, rfl, quiet_refused _ bytes⟩

namespace AnyTlsSession

variable {session : AnyTlsSession}

theorem upload_hands (bytes : Nat) (written : Bool) :
    Hands held Direction.upload (some bytes) session.trace
      (session.upload held bytes written).trace := by
  cases written with
  | true => exact ⟨_, rfl, .all, rfl⟩
  | false => exact ⟨_, rfl, .failed, rfl⟩

theorem openTcpRemote_hands (streamId : UInt32) (connected acked : Bool)
    (payload : Nat) (granted written : Bool) :
    Hands held .upload (Opening.upload held (.stream connected acked payload granted written))
      session.trace (session.openTcpRemote held streamId connected acked
        payload granted written).trace := by
  rw [openTcpRemote, Opening.upload]
  split
  · exact hands_none _
  split
  · exact hands_none _
  split
  · exact hands_none _
  split
  · exact hands_refused _ payload
  · exact upload_hands held payload written

theorem openRemote_hands (streamId : UInt32) (opening : Opening) :
    Hands held .upload (opening.upload held) session.trace
      (session.openRemote held streamId opening).trace := by
  cases opening with
  | malformed => exact hands_none _
  | datagrams acked =>
    cases acked with
    | true | false => exact hands_none _
  | stream connected acked payload granted written =>
    exact openTcpRemote_hands held streamId connected acked payload granted written

theorem readFrame_hands (hreading : session.reading = true) (input : AnyTlsInput) :
    Hands held .upload (session.uploads held input) session.trace
      (session.readFrame held input).trace := by
  cases input with
  | control answered =>
    cases answered with
    | true | false => exact hands_none _
  | synEmpty acked =>
    cases acked with
    | true | false => exact hands_none _
  | syn streamId opening =>
    rw [uploads, if_pos hreading]
    exact openRemote_hands held streamId opening
  | psh streamId bytes granted written opening =>
    rw [uploads, if_pos hreading, readFrame, handlePsh]
    split
    · exact hands_none _
    split
    · split
      · exact hands_refused _ bytes
      · exact upload_hands held bytes written
    · exact hands_none _
    · exact openRemote_hands held streamId opening
  | packet streamId bytes granted sent =>
    rw [readFrame, forwardUdpPacket]
    split
    · split
      · exact hands_refused _ bytes
      split <;> exact hands_none _
    · exact hands_none _
  | fin streamId | closed | pump worker read written => exact hands_none _

end AnyTlsSession

/-- A step hands over at most one chunk: the thread that reads to a remote, a
worker to the client. -/
theorem anyTlsStep_hands (session : AnyTlsSession) (input : AnyTlsInput) :
    (session.downloads input = none ∧ Hands held .upload (session.uploads held input) session.trace
        (anyTlsStep held session input).trace) ∨ (session.uploads held input = none ∧
      Hands false .download (session.downloads input) session.trace
        (anyTlsStep held session input).trace) := by
  unfold anyTlsStep
  split
  next worker read written =>
    refine .inr ⟨rfl, ?_⟩
    split
    next hruns =>
      unfold pumpDownlink
      split
      · exact hands_none _
      · rw [downloads, if_pos hruns]
        cases written with
        | true => exact ⟨_, rfl, .all, rfl⟩
        | false => exact ⟨_, rfl, .failed, rfl⟩
      · exact hands_none _
      · exact hands_none _
    next hover =>
      have hnone : session.downloads (.pump worker read written) = none := by
        unfold downloads
        split
        · simp_all
        · rfl
      rw [hnone]
      exact hands_none _
  next hframe =>
    have hnone : session.downloads input = none := by
      unfold downloads
      split
      · exact absurd rfl (hframe _ _ _)
      · rfl
    refine .inl ⟨hnone, ?_⟩
    split
    · exact readFrame_hands held ‹_› input
    next hover =>
      have hnone : session.uploads held input = none := by cases input <;> simp [uploads, hover]
      rw [hnone]
      exact hands_none _

/-- The next step hands over a chunk of a worker, or one of the client after a
report. -/
def AnyTlsUnpaid (session : AnyTlsSession) (input : AnyTlsInput) : Prop :=
  session.downloads input ≠ none ∨ (session.uploads held input ≠ none ∧
      (seen session.trace).reported = true)

theorem anyTlsStep_settled (hset : Settled session.trace)
    (hmeets : ¬ AnyTlsUnpaid true session input) :
    Settled (anyTlsStep true session input).trace := by
  have hnone : session.downloads input = none := by
    by_contra hsome
    exact hmeets (.inl hsome)
  rcases anyTlsStep_hands true session input with
    ⟨-, events, htrace, hchunk⟩ | ⟨-, events, htrace, hchunk⟩
  · rw [htrace]
    cases hupload : session.uploads true input with
    | none =>
      rw [hupload] at hchunk
      exact hset.quiet hchunk
    | some bytes =>
      rw [hupload] at hchunk
      obtain ⟨result, rfl⟩ := hchunk
      have hreported : (seen session.trace).reported = false := by
        by_contra hnot
        exact hmeets (.inr ⟨by simp [hupload], by simpa using hnot⟩)
      exact (hset.chunk hreported .upload bytes result).1
  · rw [hnone] at hchunk
    rw [htrace]
    exact hset.quiet hchunk

theorem anyTlsStep_not_metered (hset : Settled session.trace)
    (hunpaid : AnyTlsUnpaid true session input) :
    ¬ Metered (anyTlsStep true session input).trace := by
  rcases anyTlsStep_hands true session input with
    ⟨hnone, events, htrace, hchunk⟩ | ⟨hnone, events, htrace, hchunk⟩
  · obtain hsome | ⟨hsome, hreported⟩ := hunpaid
    · exact absurd hnone hsome
    · obtain ⟨bytes, hupload⟩ := Option.ne_none_iff_exists'.1 hsome
      rw [hupload] at hchunk
      obtain ⟨result, rfl⟩ := hchunk
      rw [htrace]
      exact hset.not_metered_chunk (.inr hreported) .upload bytes result
  · obtain hsome | ⟨hsome, -⟩ := hunpaid
    · obtain ⟨bytes, hdownload⟩ := Option.ne_none_iff_exists'.1 hsome
      rw [hdownload] at hchunk
      obtain ⟨result, rfl⟩ := hchunk
      rw [htrace]
      exact hset.not_metered_chunk (.inl rfl) .download bytes result
    · exact absurd hnone hsome

/-- With a limiter, a run of a session is metered just if no worker hands over
a chunk, and no chunk of the client is granted after a report. -/
theorem anyTlsRun_metered_iff (inputs : List AnyTlsInput) : Metered (anyTlsRun true inputs).trace ↔
      Run.Meets (anyTlsStep true) (fun session input => ¬ AnyTlsUnpaid true session input) {}
        inputs := by
  refine @exec_metered_iff _ _ _ _ (anyTlsStep true) _ AnyTlsSession.trace
    (fun session => Settled session.trace) (fun _ hset => hset) ?_ ?_
    ?_ _ settled_nil inputs
  · exact fun session input hset hmeets => anyTlsStep_settled hset hmeets
  · exact fun session input hset hunpaid => anyTlsStep_not_metered hset (not_not.1 hunpaid)
  · intro session input
    rcases anyTlsStep_hands true session input with ⟨-, events, htrace, -⟩ | ⟨-, events, htrace, -⟩
    · exact ⟨events, htrace⟩
    · exact ⟨events, htrace⟩

end AnyTls

end KeliCore
