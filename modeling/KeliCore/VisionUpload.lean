/-
The upload of the asynchronous Vision relay.  Its client is read through a TLS
layer that reads ahead, and behind the switch from the socket itself.
-/
import KeliCore.Unpadding

namespace KeliCore

open VisionRelay VisionDecoder List Bool

variable (state : VisionRelay)

/-- What the relay keeps of the upload. -/
structure Uplink where
  decoder : VisionDecoder
  direct : Bool
  done : Bool
  rawDone : Bool

namespace VisionRelay

def uplink (state : VisionRelay) : Uplink where
  decoder := state.decoder
  direct := state.uplinkDirect
  done := state.uploadDone
  rawDone := state.rawDone .upload

@[simp] theorem uplink_emit (events : List (Relaying.RelayEvent Direction)) :
    (state.emit events).uplink = state.uplink := rfl

@[simp] theorem uplink_again : state.again.uplink = state.uplink := by
  rw [again]
  split <;> rfl

@[simp] theorem uplink_settle (rawReady drained : Bool) :
    (state.settle rawReady drained).uplink = state.uplink := by
  rw [settle]
  split
  · rfl
  · split <;> rfl

/-- The relay waits for a socket, or has handed both of them on. -/
def Waiting (phase : VisionPhase) : Prop :=
  phase = .select ∨ phase = .raw

theorem not_waiting_again : ¬ Waiting state.again.phase := by
  rw [again, Waiting]
  split
  · simp [finish]
  · simp

theorem relayChunk_written (held : Bool) (direction : Direction) (bytes : Nat) :
    state.relayChunk held direction bytes true true =
      ((state.emit (Relaying.chunkEvents held direction bytes .all)).count
        direction bytes).again := by simp [relayChunk]

theorem raw_of_settle {rawReady drained : Bool} {state : VisionRelay}
    (hphase : (state.settle rawReady drained).phase = .raw) : state.uplinkDirect = true := by
  rw [settle] at hphase
  split at hphase
  next hdir =>
    simp only [and_eq_true] at hdir
    exact hdir.1.1.1
  · split at hphase
    · simp [finish] at hphase
    · simp at hphase

theorem decodeStep_piece {state : VisionRelay}
    (hover : (state.uploadDone || state.uplinkDirect) = false)
    {next : VisionDecoder} {piece : List UInt8}
    (hdecoded : state.decoder.readDecoded visionBuffer = (next, .ok piece))
    (held rawReady drained : Bool) :
    let after := state.decodeStep held true true rawReady drained
    after.uplink = ⟨next, next.isDirectCopy, state.uploadDone,
      state.rawDone .upload⟩ ∧ after.phase ≠ .raw ∧
      (after.phase = .select → piece = []) := by
  have hind := (or_eq_false_iff.1 hover).2
  simp only [decodeStep, hover, false_eq_true, if_false, hdecoded]
  cases piece with
  | nil =>
    dsimp only
    cases hdir : next.isDirectCopy with
    | true =>
      rw [if_pos rfl, uplink_again]
      exact ⟨rfl, fun hraw => not_waiting_again _ (.inr hraw), fun _ => rfl⟩
    | false =>
      rw [if_neg Bool.false_ne_true, uplink_settle]
      refine ⟨by simp [uplink, hind], fun hraw => ?_, fun _ => rfl⟩
      have hset := raw_of_settle hraw
      exact absurd (hind.symm.trans hset) (by decide)
  | cons first rest =>
    dsimp only
    rw [relayChunk_written, uplink_again]
    exact ⟨rfl, fun hraw => not_waiting_again _ (.inr hraw),
      fun hselect => absurd (.inl hselect) (not_waiting_again _)⟩

theorem visionStep_copy {state : VisionRelay} (hphase : state.phase = .select)
    (hopen : state.uploadDone = false) (hset : state.uplinkDirect = true)
    (held : Bool) (bytes : List UInt8) :
    let after := visionStep held state (.client (.got bytes) true true)
    after.uplinkDirect = true ∧ (bytes ≠ [] → after.uplink = state.uplink) := by
  simp only [visionStep, hphase, hopen, false_eq_true, if_false, clientStep, hset, if_true]
  cases bytes with
  | nil =>
    dsimp only
    refine ⟨?_, fun hsome => absurd rfl hsome⟩
    exact (congrArg Uplink.direct (uplink_again _)).trans rfl
  | cons first rest =>
    dsimp only
    rw [relayChunk_written]
    refine ⟨?_, fun _ => uplink_again _⟩
    exact (congrArg Uplink.direct (uplink_again _)).trans hset

theorem visionStep_rawCopy {state : VisionRelay} (hphase : state.phase = .raw)
    (hopen : state.rawDone .upload = false) (held : Bool) (bytes : List UInt8) :
    let after := visionStep held state (.raw .upload (.got bytes.length) true true)
    after.uplinkDirect = state.uplinkDirect ∧ (bytes ≠ [] → after.uplink = state.uplink) := by
  simp only [visionStep, hphase, hopen, false_eq_true, if_false]
  cases bytes with
  | nil =>
    refine ⟨?_, fun hsome => absurd rfl hsome⟩
    simp only [rawStep, length_nil, rawAgain]
    split <;> rfl
  | cons first rest => simp [rawStep, rawEmit, rawAdd, uplink]

end VisionRelay

/-- Where the relay meets an input. -/
def VisionInput.place : VisionInput → VisionPhase
  | .padded _ => .padding
  | .head _ _ _ _ _ => .head
  | .client _ _ _ | .remote _ _ _ _ | .drained => .select
  | .raw _ _ _ _ | .rawRevoked | .rawHalfClosed => .raw

/-- The relay, what TLS has still to hand out, what the socket has behind it,
and what was written to the remote. -/
structure VisionUpload where
  relay : VisionRelay
  plaintext : List UInt8
  raw : List UInt8
  sent : List UInt8 := []

/-- What happens to a relay whose remote stays and takes what it is given, and
whose limiter does not refuse.  A read returns at most one byte more than
`more`. -/
inductive UploadInput where
  | padded
  | head (rawReady drained : Bool)
  | client (more : Nat)
  | remote (first : UInt8) (rest : List UInt8) (draw : PaddingDraw)
  | drained
  | rawUpload (more : Nat)
  | rawDownload (more : Nat)
  | rawHalfClosed

namespace VisionUpload

/-- The decoder's turn, and what it hands to the remote. -/
def headPiece (upload : VisionUpload) : List UInt8 :=
  match upload.relay.phase with
  | .head =>
    if upload.relay.uploadDone || upload.relay.uplinkDirect then []
    else
      match (upload.relay.decoder.readDecoded visionBuffer).2 with
      | .ok piece => piece
      | .error _ => []
  | _ => []

/-- A read of the client, through TLS or from the socket. -/
def clientRead (held : Bool) (upload : VisionUpload) (more : Nat) :
    VisionUpload :=
  let room := min (more + 1) visionBuffer
  match upload.relay.phase, upload.relay.uploadDone, upload.relay.uplinkDirect with
  | .select, false, false =>
    { upload with
      relay := visionStep held upload.relay
        (.client (.got (upload.plaintext.take room)) true true)
      plaintext := upload.plaintext.drop room }
  | .select, false, true =>
    { upload with
      relay := visionStep held upload.relay
        (.client (.got (upload.raw.take room)) true true)
      raw := upload.raw.drop room
      sent := upload.sent ++ upload.raw.take room }
  | _, _, _ => upload

/-- A read of the client by the plain relay. -/
def rawRead (held : Bool) (upload : VisionUpload) (more : Nat) :
    VisionUpload :=
  let room := min (more + 1) vlessAsyncRelayBufferSize
  match upload.relay.phase, upload.relay.rawDone .upload with
  | .raw, false =>
    { upload with
      relay := visionStep held upload.relay
        (.raw .upload (.got (upload.raw.take room).length) true true)
      raw := upload.raw.drop room
      sent := upload.sent ++ upload.raw.take room }
  | _, _ => upload

def step (held : Bool) (upload : VisionUpload) : UploadInput → VisionUpload
  | .padded => { upload with relay := visionStep held upload.relay (.padded true) }
  | .head rawReady drained =>
    { upload with
      relay := visionStep held upload.relay
        (.head false true true rawReady drained)
      sent := upload.sent ++ upload.headPiece }
  | .client more => upload.clientRead held more
  | .remote first rest draw =>
    { upload with
      relay := visionStep held upload.relay
        (.remote (.got (first :: rest)) true true draw) }
  | .drained => { upload with relay := visionStep held upload.relay .drained }
  | .rawUpload more => upload.rawRead held more
  | .rawDownload more =>
    { upload with
      relay := visionStep held upload.relay
        (.raw .download (.got (more + 1)) true true) }
  | .rawHalfClosed => { upload with relay := visionStep held upload.relay .rawHalfClosed }

/-- The relay has come to the client's end. -/
def Complete (upload : VisionUpload) : Prop :=
  upload.relay.uploadDone = true ∨ upload.relay.rawDone .upload = true

end VisionUpload

structure Uploading {userId : VisionUserId} (client : VisionClient userId)
    (ahead : Nat) (upload : VisionUpload) : Prop where
  handed_on : upload.relay.phase = .raw ∨
    upload.relay.rawDone .upload = true → upload.relay.uplinkDirect = true
  padded : upload.relay.uplinkDirect = false → upload.relay.uploadDone = false →
    upload.raw = client.raw.drop ahead ∧
    (upload.relay.phase = .select → SettledDecoder upload.relay.decoder) ∧
    ∃ read, read ++ upload.plaintext = client.plaintext ∧
      Unpadding userId read upload.relay.decoder upload.sent
  closed : upload.relay.uplinkDirect = false → upload.relay.uploadDone = true →
    client.raw = [] ∧ (upload.sent = client.unpadded ↔ client.Recognised)
  direct : upload.relay.uplinkDirect = true → 21 ≤ client.plaintext.length ∧
    upload.sent ++ upload.raw = client.unpadded ++ client.raw.drop ahead
  ended : upload.relay.uplinkDirect = true → upload.Complete → upload.raw = []

variable {userId : VisionUserId}

section Steps

variable {client : VisionClient userId} {ahead : Nat} {upload : VisionUpload}

theorem uploading_padded (hind : upload.relay.uplinkDirect = false)
    (hopen : upload.relay.uploadDone = false) (hrawDone : upload.relay.rawDone .upload = false)
    (hphase : upload.relay.phase ≠ .raw)
    (hselect : upload.relay.phase = .select → SettledDecoder upload.relay.decoder)
    (hraw : upload.raw = client.raw.drop ahead) {read : List UInt8}
    (hread : read ++ upload.plaintext = client.plaintext)
    (hpad : Unpadding userId read upload.relay.decoder upload.sent) :
    Uploading client ahead upload where
  handed_on := by
    rintro (hnow | hover)
    · exact absurd hnow hphase
    · exact absurd (hrawDone.symm.trans hover) (by decide)
  padded _ _ := ⟨hraw, hselect, read, hread, hpad⟩
  closed _ hover := absurd (hopen.symm.trans hover) (by decide)
  direct hset := absurd (hind.symm.trans hset) (by decide)
  ended hset := absurd (hind.symm.trans hset) (by decide)

theorem uploading_direct (hset : upload.relay.uplinkDirect = true)
    (hlong : 21 ≤ client.plaintext.length) (hbytes : upload.sent ++ upload.raw =
      client.unpadded ++ client.raw.drop ahead) (hended : upload.Complete → upload.raw = []) :
    Uploading client ahead upload where
  handed_on _ := hset
  padded hind := absurd (hset.symm.trans hind) (by decide)
  closed hind := absurd (hset.symm.trans hind) (by decide)
  direct _ := ⟨hlong, hbytes⟩
  ended _ := hended

theorem uploading_closed (hind : upload.relay.uplinkDirect = false)
    (hdone : upload.relay.uploadDone = true) (hrawDone : upload.relay.rawDone .upload = false)
    (hphase : upload.relay.phase ≠ .raw) (hraw : client.raw = [])
    (hsent : upload.sent = client.unpadded ↔ client.Recognised) :
    Uploading client ahead upload where
  handed_on := by
    rintro (hnow | hover)
    · exact absurd hnow hphase
    · exact absurd (hrawDone.symm.trans hover) (by decide)
  padded _ hopen := absurd (hdone.symm.trans hopen) (by decide)
  closed _ _ := ⟨hraw, hsent⟩
  direct hset := absurd (hind.symm.trans hset) (by decide)
  ended hset := absurd (hind.symm.trans hset) (by decide)

theorem Uploading.rawDone_eq_false (hup : Uploading client ahead upload)
    (hind : upload.relay.uplinkDirect = false) : upload.relay.rawDone .upload = false := by
  by_contra hover
  rw [not_eq_false] at hover
  have hset := hup.handed_on (.inr hover)
  exact absurd (hind.symm.trans hset) (by decide)

theorem Uploading.relay (hup : Uploading client ahead upload)
    {relay : VisionRelay} (huplink : relay.uplink = upload.relay.uplink)
    (hraw : relay.phase = .raw → upload.relay.uplinkDirect = true)
    (hselect : relay.phase = .select → upload.relay.uplinkDirect = false →
      upload.relay.uploadDone = false → SettledDecoder upload.relay.decoder) :
    Uploading client ahead { upload with relay } := by
  have hdecoder : relay.decoder = upload.relay.decoder := congrArg Uplink.decoder huplink
  have hdir : relay.uplinkDirect = upload.relay.uplinkDirect := congrArg Uplink.direct huplink
  have hdone : relay.uploadDone = upload.relay.uploadDone := congrArg Uplink.done huplink
  have hrawDone : relay.rawDone .upload = upload.relay.rawDone .upload :=
    congrArg Uplink.rawDone huplink
  refine ⟨?_, ?_, ?_, ?_, ?_⟩
  · rintro (hphase | hover)
    · exact hdir.trans (hraw hphase)
    · exact hdir.trans (hup.handed_on (.inr (hrawDone ▸ hover)))
  · intro hind hopen
    dsimp only at hind hopen ⊢
    rw [hdir] at hind
    rw [hdone] at hopen
    rw [hdecoder]
    obtain ⟨hleft, -, hread⟩ := hup.padded hind hopen
    exact ⟨hleft, fun hphase => hselect hphase hind hopen, hread⟩
  · intro hind hover
    exact hup.closed (hdir ▸ hind) (hdone ▸ hover)
  · intro hset
    exact hup.direct (hdir ▸ hset)
  · intro hset hcomplete
    refine hup.ended (hdir ▸ hset) ?_
    rcases hcomplete with hover | hover
    · exact .inl (hdone ▸ hover)
    · exact .inr (hrawDone ▸ hover)

theorem Uploading.busy (hup : Uploading client ahead upload)
    {relay : VisionRelay} (huplink : relay.uplink = upload.relay.uplink)
    (hbusy : ¬ VisionRelay.Waiting relay.phase) : Uploading client ahead { upload with relay } :=
  hup.relay huplink (fun hraw => absurd (.inr hraw) hbusy)
    fun hselect => absurd (.inl hselect) hbusy

theorem Uploading.again {plaintext raw sent : List UInt8} {state : VisionRelay}
    (hup : Uploading client ahead ⟨{ state with phase := .head }, plaintext, raw, sent⟩) :
    Uploading client ahead ⟨state.again, plaintext, raw, sent⟩ :=
  hup.busy (uplink_again state) (not_waiting_again state)

section

variable (hup : Uploading client ahead upload)

include hup

theorem Uploading.elsewhere
    (held : Bool) (input : VisionInput) (hplace : upload.relay.phase ≠ input.place) :
    Uploading client ahead { upload with relay := visionStep held upload.relay input } := by
  have hsame : visionStep held upload.relay input = upload.relay := by
    unfold visionStep
    split
    all_goals first | rfl | exact absurd ‹upload.relay.phase = _› hplace
  rw [hsame]
  exact hup

open VisionUpload

theorem Uploading.padded_step
    (held : Bool) : Uploading client ahead (upload.step held .padded) := by
  by_cases hphase : upload.relay.phase = .padding
  · have hstep : visionStep held upload.relay (.padded true) =
        { upload.relay with phase := .head } := by simp only [visionStep, hphase, if_true]
    rw [step, hstep]
    exact hup.busy rfl (by simp [VisionRelay.Waiting])
  · exact hup.elsewhere held (.padded true) hphase

theorem Uploading.remote_step
    (held : Bool) (first : UInt8) (rest : List UInt8) (draw : PaddingDraw) :
    Uploading client ahead (upload.step held (.remote first rest draw)) := by
  by_cases hphase : upload.relay.phase = .select
  · rw [step]
    simp only [visionStep, hphase]
    split
    · exact hup
    · rw [remoteStep, relayChunk_written]
      exact hup.busy (uplink_again _) (not_waiting_again _)
  · exact hup.elsewhere held (.remote (.got (first :: rest)) true true draw) hphase

theorem Uploading.drained_step
    (held : Bool) : Uploading client ahead (upload.step held .drained) := by
  by_cases hphase : upload.relay.phase = .select
  · rw [step]
    simp only [visionStep, hphase]
    split
    · exact hup.busy rfl (by simp [VisionRelay.Waiting, VisionRelay.finish])
    · exact hup
  · exact hup.elsewhere held .drained hphase

theorem Uploading.rawDownload_step (held : Bool) (more : Nat) :
    Uploading client ahead (upload.step held (.rawDownload more)) := by
  by_cases hphase : upload.relay.phase = .raw
  · rw [step]
    simp only [visionStep, hphase]
    split
    · exact hup
    · have hdir := hup.handed_on (.inl hphase)
      refine hup.relay ?_ (fun _ => hdir) ?_
      · simp [rawStep, rawEmit, rawAdd, uplink]
      · intro _ hind
        exact absurd (hdir.symm.trans hind) (by decide)
  · exact hup.elsewhere held (.raw .download (.got (more + 1)) true true) hphase

theorem Uploading.rawHalfClosed_step (held : Bool) :
    Uploading client ahead (upload.step held .rawHalfClosed) := by
  by_cases hphase : upload.relay.phase = .raw
  · rw [step]
    simp only [visionStep, hphase]
    split
    · exact hup.busy rfl (by simp [VisionRelay.Waiting, rawFinish])
    · exact hup
  · exact hup.elsewhere held .rawHalfClosed hphase

theorem Uploading.head_step (held rawReady drained : Bool) :
    Uploading client ahead (upload.step held (.head rawReady drained)) := by
  by_cases hphase : upload.relay.phase = .head
  · rw [step]
    simp only [visionStep, hphase, headPiece,
      headStep, Bool.and_false, Bool.false_eq_true, if_false]
    generalize hevents : (if held = true then _ else _) = events
    cases hover : (upload.relay.uploadDone || upload.relay.uplinkDirect) with
    | true =>
      have hsettle : (upload.relay.emit events).decodeStep held true true rawReady drained =
          (upload.relay.emit events).settle rawReady drained := if_pos hover
      rw [if_pos rfl, append_nil, hsettle]
      refine hup.relay ?_ raw_of_settle ?_
      · rw [uplink_settle, uplink_emit]
      · intro _ hind hopen
        rw [hind, hopen] at hover
        contradiction
    | false =>
      obtain ⟨hopen, hind⟩ := Bool.or_eq_false_iff.1 hover
      obtain ⟨hraw, -, read, hread, hpad⟩ := hup.padded hind hopen
      obtain ⟨next, piece, hdecoded, hswitch, hstays⟩ :=
        hpad.readDecoded (hread ▸ client.decodes)
      have hafter := @decodeStep_piece
        (upload.relay.emit events) hover next piece hdecoded held rawReady drained
      rw [if_neg Bool.false_ne_true, hdecoded]
      generalize (upload.relay.emit events).decodeStep held true true
        rawReady drained = after at hafter
      obtain ⟨huplink, hnotRaw, hnothing⟩ := hafter
      have hdecoder : after.decoder = next := congrArg Uplink.decoder huplink
      have hset : after.uplinkDirect = next.isDirectCopy := congrArg Uplink.direct huplink
      have hdone : after.uploadDone = false := (congrArg Uplink.done huplink).trans hopen
      have hrawDone : after.rawDone .upload = false :=
        (congrArg Uplink.rawDone huplink).trans (hup.rawDone_eq_false hind)
      cases hdir : next.isDirectCopy with
      | true =>
        obtain ⟨hlong, hall⟩ := hswitch hdir
        obtain ⟨hlate, hsent, -⟩ := client.switch hread hdir hall
        rw [hlate, append_nil] at hread
        refine uploading_direct (hset.trans hdir) (hread ▸ hlong) ?_ ?_
        · dsimp only
          rw [hsent, hraw]
        · rintro (hover | hover)
          · exact absurd (hdone.symm.trans hover) (by decide)
          · exact absurd (hrawDone.symm.trans hover) (by decide)
      | false =>
        obtain ⟨hmore, hsettled⟩ := hstays hdir
        refine uploading_padded (hset.trans hdir) hdone hrawDone hnotRaw
          (fun hselect => ?_) hraw hread ?_
        · exact hdecoder ▸ hsettled (hnothing hselect)
        · exact hdecoder ▸ hmore
  · have hpiece : upload.headPiece = [] := by
      rw [headPiece]
      split
      · contradiction
      · rfl
    rw [step, hpiece, append_nil]
    exact hup.elsewhere held (.head false true true rawReady drained) hphase

variable {room : Nat}

theorem Uploading.readTls
    (hphase : upload.relay.phase = .select) (hopen : upload.relay.uploadDone = false)
    (hind : upload.relay.uplinkDirect = false) (held : Bool)
    (hroom : 0 < room) (hfits : room ≤ visionBuffer) :
    Uploading client ahead { upload with
      relay := visionStep held upload.relay (.client (.got (upload.plaintext.take room)) true true)
      plaintext := upload.plaintext.drop room } := by
  obtain ⟨hraw, hselect, read, hread, hpad⟩ := hup.padded hind hopen
  have hsettled := hselect hphase
  have hrawDone := hup.rawDone_eq_false hind
  simp only [visionStep, hphase, hopen, false_eq_true, if_false, clientStep]
  cases hpiece : upload.plaintext.take room with
  | nil =>
    have hnone : upload.plaintext = [] := by
      rcases take_eq_nil_iff.1 hpiece with hzero | hnone
      · omega
      · exact hnone
    rw [hnone, append_nil] at hread
    rw [hread] at hpad
    obtain ⟨hnoRaw, hsent⟩ := hpad.ended hsettled
    dsimp only
    apply again
    exact uploading_closed hind rfl hrawDone nofun hnoRaw hsent
  | cons first rest =>
    have hlen : (first :: rest).length ≤ visionBuffer := by
      rw [← hpiece, length_take]
      omega
    have hwhole : (first :: rest).take visionBuffer = first :: rest := take_of_length_le hlen
    have hnext : (read ++ first :: rest) ++ upload.plaintext.drop room = client.plaintext := by
      rw [append_assoc, ← hpiece, take_append_drop, hread]
    have hpushed := hpad.push hsettled hlen
    dsimp only
    rw [hind, if_neg Bool.false_ne_true, hwhole]
    apply again
    exact uploading_padded hpushed.indirect rfl hrawDone nofun nofun hraw hnext hpushed

/-- A read of the socket itself; only the end changes what the relay keeps of
the upload. -/
theorem Uploading.readSocket (hset : upload.relay.uplinkDirect = true) {relay : VisionRelay}
    (hkept : relay.uplinkDirect = true) (hroom : 0 < room)
    (hended : upload.raw.take room ≠ [] → relay.uplink = upload.relay.uplink) :
    Uploading client ahead { upload with
      relay
      raw := upload.raw.drop room
      sent := upload.sent ++ upload.raw.take room } := by
  obtain ⟨hlong, hbytes⟩ := hup.direct hset
  refine uploading_direct hkept hlong ?_ fun hcomplete => ?_
  · dsimp only
    rw [append_assoc, take_append_drop, hbytes]
  · have hnone : upload.raw = [] := by
      by_cases hpiece : upload.raw.take room = []
      · rcases take_eq_nil_iff.1 hpiece with hzero | hnone
        · omega
        · exact hnone
      · apply hup.ended hset
        rcases hcomplete with hdone | hdone
        · exact .inl ((congrArg Uplink.done (hended hpiece)).symm.trans hdone)
        · exact .inr ((congrArg Uplink.rawDone (hended hpiece)).symm.trans hdone)
    dsimp only
    rw [hnone, drop_nil]

theorem Uploading.client_step (held : Bool) (more : Nat) :
    Uploading client ahead (upload.step held (.client more)) := by
  change Uploading client ahead (upload.clientRead held more)
  have hroom : 0 < min (more + 1) visionBuffer := by
    rw [visionBuffer]
    omega
  rw [clientRead]
  split
  next hphase hopen hind =>
    exact hup.readTls hphase hopen hind held hroom (Nat.min_le_right _ _)
  next hphase hopen hset =>
    have hstep := visionStep_copy hphase hopen hset held
      (upload.raw.take (min (more + 1) visionBuffer))
    exact hup.readSocket hset hstep.1 hroom hstep.2
  · exact hup

theorem Uploading.rawUpload_step (held : Bool) (more : Nat) :
    Uploading client ahead (upload.step held (.rawUpload more)) := by
  change Uploading client ahead (upload.rawRead held more)
  have hroom : 0 < min (more + 1) vlessAsyncRelayBufferSize := by
    rw [vlessAsyncRelayBufferSize]
    omega
  rw [rawRead]
  split
  next hphase hopen =>
    have hset := hup.handed_on (.inl hphase)
    have hstep := visionStep_rawCopy hphase hopen held
      (upload.raw.take (min (more + 1) vlessAsyncRelayBufferSize))
    exact hup.readSocket hset (hstep.1.trans hset) hroom hstep.2
  · exact hup

theorem Uploading.step (held : Bool) (input : UploadInput) :
    Uploading client ahead (upload.step held input) := by
  cases input with
  | padded => exact hup.padded_step held
  | head rawReady drained => exact hup.head_step held rawReady drained
  | client more => exact hup.client_step held more
  | remote first rest draw => exact hup.remote_step held first rest draw
  | drained => exact hup.drained_step held
  | rawUpload more => exact hup.rawUpload_step held more
  | rawDownload more => exact hup.rawDownload_step held more
  | rawHalfClosed => exact hup.rawHalfClosed_step held

end

end Steps

end KeliCore
