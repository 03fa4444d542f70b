/-
The upload of the blocking Vision relay.  One loop polls both sockets; a write
to the remote waits for room, and is given up when the client has gone.
-/
import KeliCore.TlsRecords
import KeliCore.VisionUpload

namespace KeliCore

open Reading VisionDecoder List Source

/-- What a write meets: the remote takes at most one byte more than `more`, or
is full. -/
inductive RemoteWrite where
  | took (more : Nat)
  | full

/-- `peer_closed`: all that the client has sent was read, and its end is
there. -/
def peerClosed : Source UInt8 → Source UInt8 × Bool
  | [] => ([], true)
  | .wouldBlock :: socket => (socket, false)
  | .data first rest :: socket => (.data first rest :: socket, false)

theorem bytes_peerClosed (socket : Source UInt8) : (peerClosed socket).1.bytes = socket.bytes := by
  cases socket with
  | nil => rfl
  | cons event socket =>
    cases event with
    | wouldBlock | data first rest => rfl

theorem eq_nil_of_peerClosed {socket : Source UInt8}
    (hclosed : (peerClosed socket).2 = true) : socket = [] := by
  cases socket with
  | nil => rfl
  | cons event socket =>
    cases event with
    | wouldBlock | data first rest => exact absurd hclosed nofun

/-- `write_all_wait_or_cancel`: what the remote takes, the socket of the client
afterwards, and whether everything was taken.  Behind the writes that are
listed comes one that takes the rest. -/
def writeAllWaitOrCancel : List RemoteWrite → List UInt8 → Source UInt8 →
    List UInt8 × Source UInt8 × Bool
  | _, [], socket => ([], socket, true)
  | [], input, socket => (input, socket, true)
  | .full :: writes, input, socket =>
    match peerClosed socket with
    | (socket, true) => ([], socket, false)
    | (socket, false) => writeAllWaitOrCancel writes input socket
  | .took more :: writes, first :: rest, socket =>
    let (taken, after) := writeAllWaitOrCancel writes (rest.drop more) socket
    (first :: rest.take more ++ taken, after)

/-- How often the remote is found full before it has taken everything. -/
def fullTimes : List RemoteWrite → List UInt8 → Nat
  | _, [] => 0
  | [], _ => 0
  | .full :: writes, input => fullTimes writes input + 1
  | .took more :: writes, _ :: rest => fullTimes writes (rest.drop more)

theorem fullTimes_nil_le (writes : List RemoteWrite) (count : Nat) :
    fullTimes writes [] ≤ count := by
  rw [fullTimes]
  exact Nat.zero_le _

/-- A write takes a part, and everything unless it finds the remote full once
the client's end is there. -/
theorem writeAllWaitOrCancel_spec (writes : List RemoteWrite)
    (input : List UInt8) (socket : Source UInt8) :
    let result := writeAllWaitOrCancel writes input socket
    result.2.1.bytes = socket.bytes ∧ (result.2.2 = true → result.1 = input) ∧
      (result.2.2 = false → result.1.length < input.length) ∧
      (result.2.2 = true ↔ socket.bytes ≠ [] ∨ fullTimes writes input ≤ socket.blocks) := by
  induction writes generalizing input socket with
  | nil =>
    cases input with
    | nil | cons first rest => simp [writeAllWaitOrCancel, fullTimes]
  | cons write writes ih =>
    cases input with
    | nil => cases write <;> simp [writeAllWaitOrCancel, fullTimes]
    | cons first rest =>
      cases write with
      | full =>
        cases socket with
        | nil => simp [writeAllWaitOrCancel, fullTimes, peerClosed, bytes, blocks]
        | cons event socket =>
          cases event with
          | wouldBlock =>
            obtain ⟨hbytes, hall, hpart, hwhole⟩ := ih (first :: rest) socket
            refine ⟨hbytes, hall, hpart, hwhole.trans ?_⟩
            rw [fullTimes, blocks, bytes, Nat.add_le_add_iff_right]
            simp
          | data head tail =>
            obtain ⟨hbytes, hall, hpart, hwhole⟩ := ih (first :: rest) (.data head tail :: socket)
            refine ⟨hbytes, hall, hpart, hwhole.trans ?_⟩
            simp [bytes]
      | took more =>
        obtain ⟨hbytes, hall, hpart, hwhole⟩ := ih (rest.drop more) socket
        refine ⟨hbytes, fun hset => ?_, fun hset => ?_, hwhole⟩
        · change first :: rest.take more ++ _ = _
          rw [hall hset, cons_append, take_append_drop]
        · have hless := hpart hset
          change (first :: rest.take more ++ _).length < _
          rw [length_append, length_cons, length_cons, length_take]
          rw [length_drop] at hless
          omega

inductive VisionPollPhase where
  | polling
  | raw
  | ended
deriving DecidableEq

structure VisionPoll where
  client : TlsConnection
  decoder : VisionDecoder
  phase : VisionPollPhase := .polling
  uploadDone : Bool := false
  clientEof : Bool := false
  uplinkDirect : Bool := false
  downlinkDirect : Bool := false
  sent : List UInt8 := []

/-- What one turn of the loop meets, apart from the client: the writes to a
remote that stays, whether it has sent something, whether the download has left
its padding, and the clock. -/
structure VisionPollTurn where
  writes : List RemoteWrite
  downloaded : Bool
  downlinkDirect : Bool
  rawReady : Bool
  drained : Bool

/-- How the upload half of a turn ends. -/
inductive VisionPollFlow where
  | next (progressed : Bool)
  | again
  | lost

namespace VisionPoll

/-- A chunk is handed to the remote; a write that is given up leaves the
relay. -/
def write (state : VisionPoll) (writes : List RemoteWrite)
    (chunk : List UInt8) (uplinkDirect : Bool) : VisionPoll × VisionPollFlow :=
  let (taken, socket, whole) := writeAllWaitOrCancel writes chunk state.client.socket
  let state :=
    { state with
      client := { state.client with socket }, sent := state.sent ++ taken }
  if whole then ({ state with uplinkDirect }, .next true) else (state, .lost)

def endUpload (state : VisionPoll) : VisionPoll :=
  { state with uploadDone := true, clientEof := true }

section Turn

variable (openRecord : Nat → List UInt8 → List UInt8)

/-- The upload half of a turn. -/
def upload (state : VisionPoll) (writes : List RemoteWrite) : VisionPoll × VisionPollFlow :=
  if state.uploadDone then (state, .next false)
  else if state.uplinkDirect then
    match state.client.socket.read visionBuffer with
    | (socket, none) => ({ state with client := { state.client with socket } }, .next false)
    | (socket, some []) =>
      ({ state with client := { state.client with socket } }.endUpload, .next true)
    | (socket, some (first :: rest)) =>
      { state with client := { state.client with socket } }.write writes (first :: rest) true
  else
    match state.decoder.readDecoded visionBuffer with
    | (decoder, .error _) => ({ state with decoder }, .lost)
    | (decoder, .ok (first :: rest)) =>
      { state with decoder }.write writes (first :: rest) decoder.isDirectCopy
    | (decoder, .ok []) =>
      let state := { state with decoder }
      if decoder.isDirectCopy then
        ({ state with uplinkDirect := true }, .again)
      else
        match state.client.read openRecord visionBuffer with
        | (client, .ok []) =>
          ({ state with client, decoder := decoder.finish }.endUpload, .next true)
        | (client, .ok (first :: rest)) =>
          let decoder := decoder.push (first :: rest)
          ({ state with
              client, decoder, uplinkDirect := decoder.isDirectCopy },
            .next true)
        | (client, .error error) =>
          if error.isWouldBlock then ({ state with client }, .next false)
          else ({ state with client }.endUpload, .next true)

def rest (state : VisionPoll) (progressed : Bool) (turn : VisionPollTurn) :
    VisionPoll :=
  let state :=
    { state with downlinkDirect := state.downlinkDirect || turn.downlinkDirect }
  if state.clientEof && turn.drained then { state with phase := .ended }
  else if state.uplinkDirect && state.downlinkDirect &&
      state.decoder.isDrained && turn.rawReady then { state with phase := .raw }
  else if progressed || turn.downloaded || state.uploadDone then state
  else
    match peerClosed state.client.socket with
    | (socket, true) => { state with client := { state.client with socket } }.endUpload
    | (socket, false) => { state with client := { state.client with socket } }

/-- A turn of the upload of the plain relay that takes over. -/
def copy (state : VisionPoll) : VisionPoll :=
  match state.client.socket.read (16 * 1024) with
  | (socket, none) => { state with client := { state.client with socket } }
  | (socket, some []) =>
    { state with
      client := { state.client with socket }, uploadDone := true
      phase := .ended }
  | (socket, some (first :: rest)) =>
    { state with
      client := { state.client with socket }
      sent := state.sent ++ first :: rest }

/-- One turn of `relay_tls_vision_stream`. -/
def turn (state : VisionPoll) (turn : VisionPollTurn) : VisionPoll :=
  match state.phase with
  | .ended => state
  | .raw => state.copy
  | .polling =>
    match state.upload openRecord turn.writes with
    | (state, .lost) => { state with phase := .ended }
    | (state, .again) => state
    | (state, .next progressed) => state.rest progressed turn

end Turn

/-- The relay has come to the client's end, or to its own. -/
def Over (state : VisionPoll) : Prop :=
  state.uploadDone = true ∨ state.phase = .ended

/-- What the next turn hands to the remote, and the client's socket then. -/
def pending (state : VisionPoll) : List UInt8 × Source UInt8 :=
  if state.uplinkDirect then
    match state.client.socket.read visionBuffer with
    | (socket, some chunk) => (chunk, socket)
    | (socket, none) => ([], socket)
  else
    match (state.decoder.readDecoded visionBuffer).2 with
    | .ok chunk => (chunk, state.client.socket)
    | .error _ => ([], state.client.socket)

/-- The remote is not found full once the client's end is there. -/
def RemoteKeepsUp (state : VisionPoll) (turn : VisionPollTurn) : Prop :=
  state.phase = .polling → state.uploadDone = false → state.pending.2.bytes ≠ [] ∨
      fullTimes turn.writes state.pending.1 ≤ state.pending.2.blocks

instance RemoteKeepsUp.decidable (state : VisionPoll) (turn : VisionPollTurn) :
    Decidable (state.RemoteKeepsUp turn) :=
  inferInstanceAs (Decidable (state.phase = .polling →
    state.uploadDone = false → state.pending.2.bytes ≠ [] ∨
      fullTimes turn.writes state.pending.1 ≤ state.pending.2.blocks))

end VisionPoll

/-- The plaintext is in records; some of it may have been opened before the
relay starts.  A client that leaves TLS does so behind a record that carries
some of it. -/
structure VisionTlsClient (userId : VisionUserId)
    (openRecord : Nat → List UInt8 → List UInt8) extends VisionClient userId where
  opened : List UInt8
  records : List (List UInt8)
  socket : Source UInt8
  arrives : socket.bytes = records.flatten ++ raw
  valid : ∀ record ∈ records, TlsConnection.IsRecord record
  opens : opened ++ TlsConnection.openAll openRecord 0 records = plaintext
  carried : final.isDirect = true → ∀ early late, early ++ late = records →
    late ≠ [] → TlsConnection.openAll openRecord early.length late ≠ []

section Client

variable {userId : VisionUserId} {openRecord : Nat → List UInt8 → List UInt8}

def VisionTlsClient.connection (client : VisionTlsClient userId openRecord) : TlsConnection where
  socket := client.socket
  plaintext := client.opened

theorem VisionTlsClient.owes (client : VisionTlsClient userId openRecord) :
    TlsConnection.Owes openRecord client.final.isDirect client.connection
      client.plaintext client.raw := by
  refine ⟨client.records, ⟨client.arrives, client.valid, fun _ => rfl,
    fun _ => (by decide : 0 < TlsConnection.tlsHeaderLen), nofun⟩, client.opens, ?_⟩
  intro hdir early late hboth hlate
  rw [connection, Nat.zero_add]
  exact client.carried hdir early late hboth hlate

structure Polling (client : VisionTlsClient userId openRecord) (state : VisionPoll) : Prop where
  handed_on : state.phase = .raw → state.uplinkDirect = true
  ended : state.phase = .ended ∨ state.clientEof = true → state.uploadDone = true
  padded : state.uplinkDirect = false → state.uploadDone = false →
    ∃ read left, read ++ left = client.plaintext ∧ Unpadding userId read state.decoder state.sent ∧
      TlsConnection.Owes openRecord client.final.isDirect state.client left client.raw
  closed : state.uplinkDirect = false → state.uploadDone = true →
    client.raw = [] ∧ (state.sent = client.unpadded ↔ client.Recognised)
  direct : state.uplinkDirect = true → 21 ≤ client.plaintext.length ∧
    state.sent ++ state.client.socket.bytes = client.unpadded ++ client.raw ∧
    (state.uploadDone = true → state.client.socket.bytes = [])

/-- Nothing is going to be handed out before the client sends more. -/
def Drained (state : VisionPoll) : Prop :=
  state.uplinkDirect = false → state.uploadDone = false →
    SettledDecoder state.decoder ∧ state.client.plaintext = []

variable {client : VisionTlsClient userId openRecord} {state : VisionPoll}

open VisionPoll

theorem write_spec (state : VisionPoll) (writes : List RemoteWrite)
    (chunk : List UInt8) (uplinkDirect : Bool) : (state.client.socket.bytes ≠ [] ∨
        fullTimes writes chunk ≤ state.client.socket.blocks →
      ∃ socket : Source UInt8, socket.bytes = state.client.socket.bytes ∧
        state.write writes chunk uplinkDirect = ({ state with
              client := { state.client with socket }
              sent := state.sent ++ chunk, uplinkDirect }, .next true)) ∧
    (¬ (state.client.socket.bytes ≠ [] ∨ fullTimes writes chunk ≤ state.client.socket.blocks) →
      (state.write writes chunk uplinkDirect).2 = .lost ∧
        (state.write writes chunk uplinkDirect).1.uploadDone = state.uploadDone ∧
        (state.write writes chunk uplinkDirect).1.sent.length < (state.sent ++ chunk).length) := by
  obtain ⟨hbytes, hall, hpart, hwhole⟩ := writeAllWaitOrCancel_spec writes chunk state.client.socket
  rw [write]
  generalize writeAllWaitOrCancel writes chunk state.client.socket = result
    at hbytes hall hpart hwhole
  obtain ⟨taken, socket, whole⟩ := result
  dsimp only at hbytes hall hpart hwhole ⊢
  rw [← hwhole]
  cases whole with
  | true =>
    refine ⟨fun _ => ⟨socket, hbytes, ?_⟩, fun hfull => absurd rfl hfull⟩
    rw [if_pos rfl, hall rfl]
  | false =>
    refine ⟨fun hset => absurd hset (by decide), fun _ => ?_⟩
    rw [if_neg (by decide)]
    refine ⟨rfl, rfl, ?_⟩
    dsimp only
    rw [length_append, length_append]
    exact Nat.add_lt_add_left (hpart rfl) _

theorem polling_padded (hphase : state.phase = .polling) (hind : state.uplinkDirect = false)
    (hopen : state.uploadDone = false) (heof : state.clientEof = false)
    {read left : List UInt8} (hread : read ++ left = client.plaintext)
    (hpad : Unpadding userId read state.decoder state.sent)
    (howes : TlsConnection.Owes openRecord client.final.isDirect state.client
      left client.raw) : Polling client state where
  handed_on hraw := absurd (hphase.symm.trans hraw) nofun
  ended := by
    rintro (hended | hset)
    · exact absurd (hphase.symm.trans hended) nofun
    · exact absurd (heof.symm.trans hset) nofun
  padded _ _ := ⟨read, left, hread, hpad, howes⟩
  closed _ hdone := absurd (hopen.symm.trans hdone) nofun
  direct hset := absurd (hind.symm.trans hset) nofun

theorem polling_direct (hset : state.uplinkDirect = true)
    (hended : state.phase = .ended ∨ state.clientEof = true →
      state.uploadDone = true) (hlong : 21 ≤ client.plaintext.length)
    (hbytes : state.sent ++ state.client.socket.bytes = client.unpadded ++ client.raw)
    (hdone : state.uploadDone = true → state.client.socket.bytes = []) : Polling client state where
  handed_on _ := hset
  ended := hended
  padded hind := absurd (hset.symm.trans hind) nofun
  closed hind := absurd (hset.symm.trans hind) nofun
  direct _ := ⟨hlong, hbytes, hdone⟩

theorem polling_closed (hphase : state.phase ≠ .raw)
    (hind : state.uplinkDirect = false) (hdone : state.uploadDone = true)
    (hraw : client.raw = []) (hsent : state.sent = client.unpadded ↔ client.Recognised) :
    Polling client state where
  handed_on hnow := absurd hnow hphase
  ended _ := hdone
  padded _ hopen := absurd (hdone.symm.trans hopen) nofun
  closed _ _ := ⟨hraw, hsent⟩
  direct hset := absurd (hind.symm.trans hset) nofun

/-- What the upload half of a turn comes to. -/
def Uploaded (client : VisionTlsClient userId openRecord) (keepsUp : Prop)
    (result : VisionPoll × VisionPollFlow) : Prop :=
  (keepsUp → result.2 ≠ .lost ∧ result.1.phase = .polling ∧
    Polling client result.1 ∧ (result.2 = .next false → Drained result.1)) ∧
  (¬ keepsUp → result.2 = .lost ∧ result.1.uploadDone = false ∧
    result.1.sent.length < (client.unpadded ++ client.raw).length)

theorem Polling.upload_direct (hpoll : Polling client state)
    (hphase : state.phase = .polling) (hopen : state.uploadDone = false)
    (hset : state.uplinkDirect = true) (writes : List RemoteWrite) :
    Uploaded client (state.pending.2.bytes ≠ [] ∨
        fullTimes writes state.pending.1 ≤ state.pending.2.blocks)
      (state.upload openRecord writes) := by
  obtain ⟨hlong, hbytes, -⟩ := hpoll.direct hset
  rw [pending, if_pos hset, upload, if_neg (by simp [hopen]), if_pos hset]
  cases hread : state.client.socket.read visionBuffer with
  | mk socket piece =>
    cases piece with
    | none =>
      obtain ⟨hsame, -⟩ := read_none hread
      refine ⟨fun _ => ⟨nofun, hphase, ?_, fun _ => ?_⟩, fun hfull => ?_⟩
      · refine polling_direct hset hpoll.ended hlong ?_ ?_
        · dsimp only
          rw [hsame, hbytes]
        · exact fun hdone => absurd (hopen.symm.trans hdone) nofun
      · exact fun hind => absurd (hset.symm.trans hind) nofun
      · exact absurd (.inr (fullTimes_nil_le _ _)) hfull
    | some piece =>
      obtain ⟨hsame, -, -⟩ := read_some hread
      cases piece with
      | nil =>
        obtain ⟨-, rfl⟩ := read_end (by decide) hread
        refine ⟨fun _ => ⟨nofun, hphase, ?_, nofun⟩, fun hfull => ?_⟩
        · refine polling_direct hset (fun _ => rfl) hlong ?_ fun _ => rfl
          rw [← hsame] at hbytes
          exact hbytes
        · exact absurd (.inr (fullTimes_nil_le _ _)) hfull
      | cons first rest =>
        have hwrite := write_spec { state with client := { state.client with socket } } writes
          (first :: rest) true
        dsimp only at hwrite ⊢
        refine ⟨fun hkeeps => ?_, fun hfull => ?_⟩
        · obtain ⟨after, hafter, heq⟩ := hwrite.1 hkeeps
          rw [heq]
          refine ⟨nofun, hphase, ?_, nofun⟩
          refine polling_direct rfl hpoll.ended hlong ?_ ?_
          · dsimp only
            rw [hafter, append_assoc, hsame, hbytes]
          · exact fun hdone => absurd (hopen.symm.trans hdone) nofun
        · obtain ⟨hlost, hkept, hless⟩ := hwrite.2 hfull
          refine ⟨hlost, hkept.trans hopen, hless.trans_le ?_⟩
          rw [← hbytes, ← hsame, ← append_assoc]
          exact (prefix_append _ _).length_le

theorem Polling.switch {read left sent : List UInt8} {final : VisionState}
    (hread : read ++ left = client.plaintext)
    (hlong : 21 ≤ read.length) (hdir : final.isDirect = true)
    (hall : ((VisionDecoder.new userId).push read).decodeAll = .ok (final, sent))
    (howes : TlsConnection.Owes openRecord client.final.isDirect state.client
      left client.raw) : 21 ≤ client.plaintext.length ∧ sent = client.unpadded ∧
      state.client.socket.bytes = client.raw := by
  obtain ⟨rfl, hsent, hleaves⟩ := client.switch hread hdir hall
  rw [hleaves] at howes
  rw [append_nil] at hread
  exact ⟨hread ▸ hlong, hsent, howes.socket⟩

/-- A read through TLS, of a decoder that has nothing to hand out. -/
theorem Polling.upload_read (hphase : state.phase = .polling) (hind : state.uplinkDirect = false)
    (hopen : state.uploadDone = false) (heof : state.clientEof = false)
    {read left : List UInt8} (hread : read ++ left = client.plaintext)
    (hpad : Unpadding userId read state.decoder state.sent)
    (hsettled : SettledDecoder state.decoder)
    (howes : TlsConnection.Owes openRecord client.final.isDirect state.client left client.raw) :
    (∃ next, state.client.read openRecord visionBuffer = (next, .error wouldBlock) ∧
      Polling client { state with client := next } ∧ Drained { state with client := next }) ∨
    (∃ next, state.client.read openRecord visionBuffer = (next, .ok []) ∧
      Polling client { state with client := next, decoder := state.decoder.finish }.endUpload) ∨
    ∃ next piece, state.client.read openRecord visionBuffer = (next, .ok piece) ∧ piece ≠ [] ∧
      Polling client { state with client := next, decoder := state.decoder.push piece } := by
  have hmore : left ≠ [] ∨ client.raw = [] := by
    by_cases hleft : left = []
    · right
      rw [hleft, append_nil] at hread
      rw [hread] at hpad
      exact (hpad.ended hsettled).1
    · exact .inl hleft
  rcases howes.read hmore (by decide : 0 < visionBuffer) with
    ⟨next, heq, hplain, hnext⟩ | ⟨next, heq, hleft, -⟩ |
    ⟨next, piece, rest, heq, hpiece, hlen, hsplit, hnext⟩
  · exact .inl ⟨next, heq, polling_padded hphase hind hopen heof hread
      hpad hnext, fun _ _ => ⟨hsettled, hplain⟩⟩
  · rw [hleft, append_nil] at hread
    rw [hread] at hpad
    obtain ⟨hraw, hsent⟩ := hpad.ended hsettled
    refine .inr (.inl ⟨next, heq, polling_closed ?_ hind rfl hraw hsent⟩)
    exact fun hnow => absurd (hphase.symm.trans hnow) nofun
  · refine .inr (.inr ⟨next, piece, heq, hpiece, ?_⟩)
    have hpushed := hpad.push hsettled hlen
    rw [← hsplit, ← append_assoc] at hread
    exact polling_padded hphase hind hopen heof hread hpushed hnext

section

variable (hpoll : Polling client state)

include hpoll

theorem Polling.client_open (hopen : state.uploadDone = false) : state.clientEof = false := by
  by_contra hset
  rw [Bool.not_eq_false] at hset
  exact absurd (hopen.symm.trans (hpoll.ended (.inr hset))) nofun

theorem Polling.upload_padded (hphase : state.phase = .polling) (hopen : state.uploadDone = false)
    (hind : state.uplinkDirect = false) (writes : List RemoteWrite) :
    Uploaded client (state.pending.2.bytes ≠ [] ∨
        fullTimes writes state.pending.1 ≤ state.pending.2.blocks)
      (state.upload openRecord writes) := by
  obtain ⟨read, left, hread, hpad, howes⟩ := hpoll.padded hind hopen
  obtain ⟨next, piece, hdecoded, hswitch, hstays⟩ := hpad.readDecoded (hread ▸ client.decodes)
  have heof := hpoll.client_open hopen
  rw [pending, if_neg (by simp [hind]), upload,
    if_neg (by simp [hopen]), if_neg (by simp [hind]), hdecoded]
  cases piece with
  | nil =>
    refine ⟨fun _ => ?_, fun hfull => absurd (.inr (fullTimes_nil_le _ _)) hfull⟩
    dsimp only
    cases hdir : next.isDirectCopy with
    | true =>
      obtain ⟨hlong, hall⟩ := hswitch hdir
      obtain ⟨hlong, hsent, hsocket⟩ := switch hread hlong hdir hall howes
      rw [append_nil] at hsent
      refine ⟨nofun, hphase, polling_direct rfl hpoll.ended hlong ?_ ?_, nofun⟩
      · rw [← hsent, ← hsocket]
        rfl
      · exact fun hdone => absurd (hopen.symm.trans hdone) nofun
    | false =>
      obtain ⟨hmore, hsettled⟩ := hstays hdir
      rw [append_nil] at hmore
      rcases @Polling.upload_read _ _ client { state with decoder := next }
        hphase hind hopen heof _ _ hread hmore (hsettled rfl) howes with
        ⟨connection, heq, hafter, hdrained⟩ | ⟨connection, heq, hafter⟩ |
        ⟨connection, piece, heq, hpiece, hafter⟩
      · rw [heq]
        exact ⟨nofun, hphase, hafter, fun _ => hdrained⟩
      · rw [heq]
        exact ⟨nofun, hphase, hafter, nofun⟩
      · obtain ⟨first, rest, rfl⟩ := exists_cons_of_ne_nil hpiece
        have hkept : (next.push (first :: rest)).isDirectCopy =
          state.uplinkDirect := hdir.trans hind.symm
        rw [heq]
        dsimp only
        rw [hkept]
        exact ⟨nofun, hphase, hafter, nofun⟩
  | cons first rest =>
    have hwrite := write_spec { state with decoder := next } writes
      (first :: rest) next.isDirectCopy
    dsimp only at hwrite ⊢
    refine ⟨fun hkeeps => ?_, fun hfull => ?_⟩
    · obtain ⟨socket, hsocket, heq⟩ := hwrite.1 hkeeps
      rw [heq]
      refine ⟨nofun, hphase, ?_, nofun⟩
      cases hdir : next.isDirectCopy with
      | true =>
        obtain ⟨hlong, hall⟩ := hswitch hdir
        obtain ⟨hlong, hsent, hraw⟩ := switch hread hlong hdir hall howes
        refine polling_direct rfl hpoll.ended hlong ?_ ?_
        · dsimp only
          rw [hsent, hsocket, hraw]
        · exact fun hdone => absurd (hopen.symm.trans hdone) nofun
      | false =>
        exact polling_padded hphase rfl hopen heof hread (hstays hdir).1 (howes.arrives hsocket)
    · obtain ⟨hlost, hkept, hless⟩ := hwrite.2 hfull
      refine ⟨hlost, hkept.trans hopen, hless.trans_le ?_⟩
      have hpart : state.sent ++ first :: rest <+: client.unpadded := by
        cases hdir : next.isDirectCopy with
        | true =>
          obtain ⟨hlong, hall⟩ := hswitch hdir
          obtain ⟨-, hsent, -⟩ := switch hread hlong hdir hall howes
          rw [hsent]
        | false => exact (hstays hdir).1.prefix_sent hread
      exact (hpart.trans (prefix_append _ _)).length_le

theorem Polling.peek (hphase : state.phase = .polling) (hopen : state.uploadDone = false)
    (hdrained : Drained state) (downlinkDirect : Bool) :
    Polling client (match peerClosed state.client.socket with
      | (socket, true) =>
        { state with
          client := { state.client with socket }, downlinkDirect }.endUpload
      | (socket, false) =>
        { state with
          client := { state.client with socket }, downlinkDirect }) := by
  have hsame := bytes_peerClosed state.client.socket
  have hclosed := @eq_nil_of_peerClosed state.client.socket
  generalize peerClosed state.client.socket = result at hsame hclosed
  obtain ⟨socket, closed⟩ := result
  dsimp only at hsame hclosed
  cases hset : state.uplinkDirect with
  | true =>
    obtain ⟨hlong, hbytes, -⟩ := hpoll.direct hset
    rw [← hsame] at hbytes
    cases closed with
    | true =>
      refine polling_direct rfl (fun _ => rfl) hlong hbytes fun _ => ?_
      rw [hclosed rfl] at hsame
      exact hsame
    | false =>
      refine polling_direct rfl hpoll.ended hlong hbytes ?_
      exact fun hdone => absurd (hopen.symm.trans hdone) nofun
  | false =>
    obtain ⟨read, left, hread, hpad, howes⟩ := hpoll.padded hset hopen
    obtain ⟨hsettled, hplain⟩ := hdrained hset hopen
    cases closed with
    | true =>
      rw [howes.ended (hclosed rfl) hplain, append_nil] at hread
      rw [hread] at hpad
      obtain ⟨hraw, hsent⟩ := hpad.ended hsettled
      refine polling_closed ?_ rfl rfl hraw hsent
      exact fun hnow => absurd (hphase.symm.trans hnow) nofun
    | false =>
      have heof := hpoll.client_open hopen
      exact polling_padded hphase rfl hopen heof hread hpad (howes.arrives hsame)

theorem Polling.rest {progressed : Bool} (hphase : state.phase = .polling)
    (hdrained : progressed = false → Drained state) (turn : VisionPollTurn) :
    Polling client (state.rest progressed turn) := by
  rw [VisionPoll.rest]
  dsimp only
  split
  next hend =>
    rw [Bool.and_eq_true] at hend
    have hdone := hpoll.ended (.inr hend.1)
    exact ⟨nofun, fun _ => hdone, hpoll.padded, hpoll.closed, hpoll.direct⟩
  · split
    next hraw =>
      simp only [Bool.and_eq_true] at hraw
      exact ⟨fun _ => hraw.1.1.1, fun hend => hpoll.ended (hend.imp_left nofun),
        hpoll.padded, hpoll.closed, hpoll.direct⟩
    · split
      · exact ⟨hpoll.handed_on, hpoll.ended, hpoll.padded,
          hpoll.closed, hpoll.direct⟩
      next hidle =>
        simp only [Bool.or_eq_true, not_or, Bool.not_eq_true] at hidle
        obtain ⟨⟨hstill, -⟩, hopen⟩ := hidle
        exact hpoll.peek hphase hopen (hdrained hstill) _

theorem Polling.copy (hphase : state.phase = .raw) : Polling client state.copy := by
  have hset := hpoll.handed_on hphase
  obtain ⟨hlong, hbytes, hdone⟩ := hpoll.direct hset
  rw [VisionPoll.copy]
  cases hread : state.client.socket.read (16 * 1024) with
  | mk socket piece =>
    cases piece with
    | none =>
      obtain ⟨hsame, -⟩ := read_none hread
      refine polling_direct hset hpoll.ended hlong ?_ ?_
      · dsimp only
        rw [hsame, hbytes]
      · intro hover
        dsimp only
        rw [hsame]
        exact hdone hover
    | some piece =>
      obtain ⟨hsame, -, -⟩ := read_some hread
      cases piece with
      | nil =>
        obtain ⟨-, rfl⟩ := read_end (by decide) hread
        refine polling_direct hset (fun _ => rfl) hlong ?_ fun _ => rfl
        rw [← hsame] at hbytes
        exact hbytes
      | cons first rest =>
        refine polling_direct hset hpoll.ended hlong ?_ ?_
        · dsimp only
          rw [append_assoc, hsame, hbytes]
        · intro hover
          rw [hdone hover] at hsame
          simp at hsame

theorem Polling.upload (hphase : state.phase = .polling) (turn : VisionPollTurn) :
    Uploaded client (state.RemoteKeepsUp turn) (state.upload openRecord turn.writes) := by
  cases hopen : state.uploadDone with
  | true =>
    have hover : state.upload openRecord turn.writes = (state, .next false) := if_pos hopen
    rw [hover]
    refine ⟨fun _ => ⟨nofun, hphase, hpoll, fun _ _ hset => ?_⟩, fun hfull => ?_⟩
    · exact absurd (hopen.symm.trans hset) nofun
    · refine (hfull fun _ hset => ?_).elim
      exact absurd (hopen.symm.trans hset) nofun
  | false =>
    have hkeeps : state.RemoteKeepsUp turn ↔ state.pending.2.bytes ≠ [] ∨
        fullTimes turn.writes state.pending.1 ≤ state.pending.2.blocks :=
      ⟨fun hkeeps => hkeeps hphase hopen, fun hkeeps _ _ => hkeeps⟩
    rw [hkeeps]
    cases hset : state.uplinkDirect with
    | true => exact hpoll.upload_direct hphase hopen hset turn.writes
    | false => exact hpoll.upload_padded hphase hopen hset turn.writes

theorem Polling.turn (turn : VisionPollTurn) (hkeeps : state.RemoteKeepsUp turn) :
    Polling client (state.turn openRecord turn) := by
  rw [VisionPoll.turn]
  cases hphase : state.phase with
  | ended => exact hpoll
  | raw => exact hpoll.copy hphase
  | polling =>
    have hupload := (hpoll.upload hphase turn).1 hkeeps
    generalize state.upload openRecord turn.writes = result at hupload
    obtain ⟨after, flow⟩ := result
    obtain ⟨hlost, hafterPhase, hafter, hdrained⟩ := hupload
    cases flow with
    | lost => exact absurd rfl hlost
    | again => exact hafter
    | next progressed =>
      refine hafter.rest hafterPhase (fun hstill => ?_) turn
      exact hdrained (by rw [hstill])

/-- At the end of a relay that does not leave early, only what the decoder has
held back is missing. -/
theorem Polling.over (hover : state.Over) :
    state.sent = client.unpadded ++ client.raw ↔ client.Recognised := by
  have hdone : state.uploadDone = true := by
    rcases hover with hdone | hphase
    · exact hdone
    · exact hpoll.ended (.inl hphase)
  cases hset : state.uplinkDirect with
  | true =>
    obtain ⟨hlong, hbytes, hsocket⟩ := hpoll.direct hset
    rw [hsocket hdone, append_nil] at hbytes
    exact iff_of_true hbytes (.inr hlong)
  | false =>
    obtain ⟨hraw, hsent⟩ := hpoll.closed hset hdone
    rw [hraw, append_nil]
    exact hsent

end

end Client

end KeliCore
