/-
The download half of a VMess relay over TLS.  The body encoder hands its
output to a TLS connection over a socket that does not block; the connection
takes plaintext before it finds out whether the socket has room.
-/
import KeliCore.Sockets
import KeliCore.VmessRoundTrip

namespace KeliCore

open Writing List

/-- What a call of `TlsConnection::write` meets: the room in the buffer for
plaintext, and the socket; a socket with nothing left to say has no room. -/
structure TlsTurn where
  room : Nat
  socket : List SocketWrite

/-- `flush_tls`, with the number of encrypted bytes that wait. -/
def flushTls : Nat → List SocketWrite → Nat × Option IoError
  | 0, _ => (0, none)
  | pending + 1, [] => (pending + 1, some wouldBlock)
  | pending + 1, .wrote 0 :: _ => (pending + 1, some ⟨.writeZero, "tls socket write returned zero"⟩)
  | pending + 1, .wrote (count + 1) :: socket => flushTls (pending - count) socket
  | pending + 1, .error error :: _ => (pending + 1, some error)

/-- `TlsConnection::write`.  What goes on the wire is, here, the plaintext that
the TLS layer is given; `recordBytes` is the size of its records. -/
def tlsWrite (recordBytes : Nat → Nat) : Writer Nat UInt8 TlsTurn UInt8 := fun pending input turn =>
  if input = [] then (pending, ⟨[], .took 0⟩)
  else
    let taken := input.take turn.room
    match flushTls (pending + recordBytes taken.length) turn.socket with
    | (pending, none) => (pending, ⟨taken, .took taken.length⟩)
    | (pending, some error) => (pending, ⟨taken, error.answer⟩)

theorem tlsWrite_emitted (recordBytes : Nat → Nat) (pending : Nat)
    (input : List UInt8) (turn : TlsTurn) :
    (tlsWrite recordBytes pending input turn).2.emitted = input.take turn.room := by
  rw [tlsWrite]
  split
  next hnil => rw [hnil, take_nil]
  · dsimp only
    split <;> rfl

variable {pending : Nat} {input : List UInt8} {entries : List (List UInt8 × List TlsTurn)}

/-- A call that succeeds took all that it gave to the TLS layer. -/
theorem tlsWrite_took {recordBytes : Nat → Nat} {next : Nat}
    {emitted : List UInt8} {turn : TlsTurn} {count : Nat}
    (hcall : tlsWrite recordBytes pending input turn =
      (next, ⟨emitted, .took count⟩)) : count = emitted.length := by
  rw [tlsWrite] at hcall
  split at hcall
  · obtain ⟨-, rfl, hcount⟩ := by simpa using hcall
    rw [← hcount, length_nil]
  · dsimp only at hcall
    split at hcall
    · simp only [Prod.mk.injEq, Call.mk.injEq, Answer.took.injEq] at hcall
      obtain ⟨-, rfl, hcount⟩ := hcall
      exact hcount.symm
    · simp only [Prod.mk.injEq, Call.mk.injEq] at hcall
      exact absurd hcall.2.2 (IoError.answer_ne_took _ _)

theorem faithful_tlsWrite (recordBytes : Nat → Nat) : Faithful (tlsWrite recordBytes) id where
  nil := rfl
  took {pending input turn next emitted count} _ hcall := by
    have hcount := tlsWrite_took hcall
    have hemitted := tlsWrite_emitted recordBytes pending input turn
    rw [hcall] at hemitted
    dsimp only at hemitted
    rw [hcount]
    nth_rewrite 2 [hemitted]
    rw [hemitted, id, id, length_take]
    rcases Nat.le_total turn.room input.length with hle | hle
    · rw [Nat.min_eq_left hle, take_append_drop]
    · rw [Nat.min_eq_right hle, take_of_length_le hle, drop_length, append_nil]
  emits {pending input turn} _ := by
    rw [tlsWrite_emitted]
    exact take_prefix _ _

/-- The TLS layer takes plaintext in this call, and then the socket has no room
for its records. -/
def StallsAfterTaking (recordBytes : Nat → Nat) (offer : Offer Nat UInt8 TlsTurn) : Prop :=
  0 < offer.turn.room ∧
    ∃ error ∈ (flushTls (offer.state + recordBytes (min offer.turn.room offer.input.length))
      offer.turn.socket).2, error.kind = .wouldBlock

theorem harmless_tlsWrite_iff {offer : Offer Nat UInt8 TlsTurn}
    (recordBytes : Nat → Nat) (hinput : offer.input ≠ []) :
    offer.Harmless (tlsWrite recordBytes) ↔ ¬ StallsAfterTaking recordBytes offer := by
  rw [Offer.Harmless, tlsWrite_emitted, take_eq_nil_iff, tlsWrite, if_neg hinput, StallsAfterTaking]
  simp only [length_take]
  rcases hflush : flushTls (offer.state + recordBytes (min offer.turn.room offer.input.length))
    offer.turn.socket with ⟨pending, _ | error⟩
  · simp
  · simp [IoError.answer_eq_blocked_iff, hinput, Nat.pos_iff_ne_zero]
    tauto

theorem wasted_eq_zero_tlsWrite_iff (recordBytes : Nat → Nat)
    (pending : Nat) (input : List UInt8) (turns : List TlsTurn) :
    wasted (tlsWrite recordBytes) pending input turns = 0 ↔
      ∀ offer ∈ offers (tlsWrite recordBytes) pending input turns,
        ¬ StallsAfterTaking recordBytes offer := by
  rw [wasted_eq_zero_iff]
  exact forall₂_congr fun offer hoffer =>
    harmless_tlsWrite_iff recordBytes (input_ne_nil_of_mem_offers _ hoffer)

/-- `write_all_wait` of an input, with the calls that are made for it. -/
def writeInput (recordBytes : Nat → Nat) (pending : Nat)
    (input : List UInt8 × List TlsTurn) : Outcome Nat UInt8 :=
  writeAllWait (tlsWrite recordBytes) pending input.1 input.2

variable {encoder : VmessBodyEncoder}

namespace VmessBodyEncoder

variable (crypto : VmessCrypto) (random : Nat → UInt8)

/-- `write_chunk`, as the inputs of its calls of `write_all_wait`. -/
def chunkParts (encoder : VmessBodyEncoder) (input : List UInt8) :
    VmessBodyEncoder × Except IoError (List (List UInt8)) :=
  let chunk := encoder.writeChunk crypto random input
  (chunk.1, chunk.2.map fun chunk => [chunk.header, chunk.payload, chunk.padding])

/-- `write_plain` of a framed body: the parts that are written, and the error
that ends it. -/
def plainParts (encoder : VmessBodyEncoder) (input : List UInt8) :
    VmessBodyEncoder × List (List UInt8) × Option IoError :=
  if _ : input = [] then (encoder, [], none)
  else
    match encoder.chunkParts crypto random (input.take maxChunkSize) with
    | (encoder, .error error) => (encoder, [], some error)
    | (encoder, .ok parts) =>
      let rest := plainParts encoder (input.drop maxChunkSize)
      (rest.1, parts ++ rest.2.1, rest.2.2)
termination_by input.length
decreasing_by
  have hpos : 0 < input.length := List.length_pos_iff.2 ‹_›
  rw [List.length_drop]
  unfold maxChunkSize
  omega

/-- What the relay has the encoder of a framed body write: each piece it reads
from the remote, and the end of the body.  An error ends the relay. -/
def bodyParts (encoder : VmessBodyEncoder) : List (List UInt8) → List (List UInt8)
  | [] =>
    if encoder.finished then []
    else
      match chunkParts crypto random { encoder with finished := true } [] with
      | (_, .error _) => []
      | (_, .ok parts) => parts
  | piece :: pieces =>
    match encoder.plainParts crypto random piece with
    | (_, parts, some _) => parts
    | (encoder, parts, none) => parts ++ bodyParts encoder pieces

theorem writeChunk_parts {after : VmessBodyEncoder} {chunk : WrittenChunk}
    (hchunk : encoder.writeChunk crypto random input = (after, .ok chunk)) :
    ∃ parts, encoder.chunkParts crypto random input = (after, .ok parts) ∧
      parts.flatten = chunk.bytes := by
  rw [chunkParts, hchunk]
  exact ⟨_, rfl, by simp [WrittenChunk.bytes]⟩

/-- Where the encoder has no error, its calls write the same bytes. -/
theorem writeChunks_parts {after : VmessBodyEncoder} {chunks : List WrittenChunk}
    (hchunks : encoder.writeChunks crypto random input = (after, .ok chunks)) :
    ∃ parts, encoder.plainParts crypto random input = (after, parts, none) ∧
      parts.flatten = chunks.flatMap WrittenChunk.bytes := by
  induction hlen : input.length using Nat.strong_induction_on
    generalizing encoder input chunks with
  | _ length ih =>
    rw [writeChunks] at hchunks
    rw [plainParts]
    by_cases hnil : input = []
    · rw [dif_pos hnil] at hchunks ⊢
      cases hchunks
      exact ⟨[], rfl, rfl⟩
    rw [dif_neg hnil] at hchunks ⊢
    have hshorter : (input.drop maxChunkSize).length < length := by
      have hpos : 0 < input.length := length_pos_iff.2 hnil
      rw [length_drop, maxChunkSize]
      omega
    cases hchunk : encoder.writeChunk crypto random (input.take maxChunkSize) with
    | mk next result =>
      rw [hchunk] at hchunks
      cases result with
      | error error => simp at hchunks
      | ok chunk =>
        obtain ⟨parts, hparts, hflat⟩ := writeChunk_parts crypto random hchunk
        dsimp only at hchunks
        cases hrest : next.writeChunks crypto random (input.drop maxChunkSize) with
        | mk last result =>
          rw [hrest] at hchunks
          cases result with
          | error error => simp [Except.map] at hchunks
          | ok others =>
            cases hchunks
            obtain ⟨tail, htail, hflatTail⟩ := ih _ hshorter hrest rfl
            rw [hparts]
            refine ⟨parts ++ tail, by simp [htail], ?_⟩
            rw [flatten_append, hflat, hflatTail, flatMap_cons]

/-- The parts an encoder is made of stay the same. -/
structure SameKind (before after : VmessBodyEncoder) : Prop where
  security : after.security = before.security
  options : after.options = before.options

theorem chunkParts_sameKind (encoder : VmessBodyEncoder) (input : List UInt8) :
    SameKind encoder (encoder.chunkParts crypto random input).1 := by
  rw [chunkParts, writeChunk]
  dsimp only
  split
  · exact ⟨rfl, rfl⟩
  split
  · exact ⟨rfl, rfl⟩
  split <;> exact ⟨rfl, rfl⟩

theorem plainParts_sameKind (encoder : VmessBodyEncoder) (input : List UInt8) :
    SameKind encoder (encoder.plainParts crypto random input).1 := by
  induction hlen : input.length using Nat.strong_induction_on generalizing encoder input with
  | _ length ih =>
    rw [plainParts]
    split
    · exact ⟨rfl, rfl⟩
    rename_i hnil
    have hshorter : (input.drop maxChunkSize).length < length := by
      have hpos : 0 < input.length := length_pos_iff.2 hnil
      rw [length_drop, maxChunkSize]
      omega
    have hchunk := chunkParts_sameKind crypto random encoder (input.take maxChunkSize)
    split
    case h_1 herror => rwa [herror] at hchunk
    case h_2 next parts hparts =>
        rw [hparts] at hchunk
        have hrest := ih _ hshorter next _ rfl
        exact ⟨hrest.security.trans hchunk.security, hrest.options.trans hchunk.options⟩

theorem flatten_bodyParts (hframed : unframed encoder.security encoder.options = false)
    {writes : List BodyWrite} {body : Body}
    (hbody : writeBody crypto random encoder writes = .ok body) :
    (encoder.bodyParts crypto random (writes.map BodyWrite.input)).flatten = body.bytes := by
  induction writes generalizing encoder body with
  | nil =>
    rw [writeBody, finish] at hbody
    rw [map_nil, bodyParts]
    cases hfinished : encoder.finished with
    | true =>
      rw [hfinished, if_pos rfl] at hbody
      cases hbody
      rfl
    | false =>
      simp only [hfinished, hframed, Bool.false_eq_true, if_false] at hbody ⊢
      rcases hchunk : writeChunk crypto random
          { encoder with finished := true } [] with ⟨after, _ | chunk⟩
      · rw [hchunk] at hbody
        cases hbody
      · rw [hchunk] at hbody
        cases hbody
        obtain ⟨parts, hparts, hflat⟩ := writeChunk_parts crypto random hchunk
        rw [hparts]
        exact hflat
  | cons write writes ih =>
    rw [writeBody, writePlain] at hbody
    rw [map_cons, bodyParts]
    by_cases hnil : write.input = []
    · rw [if_pos hnil] at hbody
      rw [plainParts, dif_pos hnil]
      cases hrest : writeBody crypto random encoder writes with
      | error error => simp [hrest, bind, Except.bind] at hbody
      | ok rest =>
        simp only [hrest, bind, Except.bind, pure, Except.pure, Except.ok.injEq] at hbody
        rw [← hbody]
        exact ih hframed hrest
    · rw [if_neg hnil, hframed] at hbody
      rcases hchunks : encoder.writeChunks crypto random write.input with ⟨next, _ | chunks⟩
      · simp [hchunks, bind, Except.bind, Except.map] at hbody
      · simp only [hchunks, bind, Except.bind, Except.map, Bool.false_eq_true, if_false] at hbody
        obtain ⟨parts, hparts, hflat⟩ := writeChunks_parts crypto random hchunks
        have hkind := plainParts_sameKind crypto random encoder write.input
        rw [hparts] at hkind ⊢
        cases hrest : writeBody crypto random next writes with
        | error error => simp [hrest] at hbody
        | ok rest =>
          simp only [hrest, pure, Except.pure, Except.ok.injEq] at hbody
          have hnext : unframed next.security next.options = false := by
            rw [hkind.security, hkind.options, hframed]
          have htail := ih hnext hrest
          rw [← hbody, flatten_append, hflat, htail]

theorem writeBody_unframed {encoder : VmessBodyEncoder}
    (hunframed : unframed encoder.security encoder.options = true)
    {pieces : List (List UInt8)} {body : Body} (hbody : writeBody crypto random encoder
      (pieces.map fun piece => ⟨piece, piece.length⟩) = .ok body) :
    body.bytes = pieces.flatten := by
  induction pieces generalizing body with
  | nil =>
    rw [map_nil, writeBody, finish] at hbody
    split at hbody
    · rw [← Except.ok.inj hbody]
      rfl
    · simp only [hunframed, if_true] at hbody
      rw [← Except.ok.inj hbody]
      rfl
  | cons piece pieces ih =>
    have hplain : encoder.writePlain crypto random piece piece.length =
        (encoder, .ok { bytes := piece, reported := piece.length }) := by
      rw [writePlain]
      split
      next hnil =>
        rw [hnil]
        rfl
      · rw [take_length]
    rw [map_cons, writeBody, hplain] at hbody
    cases hrest : writeBody crypto random encoder
        (pieces.map fun piece => ⟨piece, piece.length⟩) with
    | error error => simp [hrest, bind, Except.bind] at hbody
    | ok rest =>
      simp only [hrest, bind, Except.bind, pure, Except.pure, Except.ok.injEq] at hbody
      rw [← hbody, flatten_cons, ← ih hrest]

end VmessBodyEncoder

/-- Each input with the calls that are made for it. -/
def scheduled (turns : Nat → List TlsTurn) :
    Nat → List (List UInt8) → List (List UInt8 × List TlsTurn)
  | _, [] => []
  | index, input :: inputs => (input, turns index) :: scheduled turns (index + 1) inputs

theorem flatMap_scheduled (turns : Nat → List TlsTurn) (index : Nat) (inputs : List (List UInt8)) :
    (scheduled turns index inputs).flatMap Prod.fst = inputs.flatten := by
  induction inputs generalizing index with
  | nil => rfl
  | cons input inputs ih => rw [scheduled, flatMap_cons, ih, flatten_cons]

/-- The one call of an unframed write. -/
def onlyTurn (turns : List TlsTurn) : TlsTurn := turns.headD ⟨0, []⟩

/-- The download of an unframed body: one call for each piece, and nobody looks
at how much of it was taken. -/
def writeOnce (recordBytes : Nat → Nat) : Nat → List (List UInt8 × List TlsTurn) → Outcome Nat UInt8
  | pending, [] => ⟨pending, [], .done⟩
  | pending, (piece, turns) :: rest =>
    match tlsWrite recordBytes pending piece (onlyTurn turns) with
    | (next, ⟨emitted, .took _⟩) => (writeOnce recordBytes next rest).after emitted
    | (next, ⟨emitted, .blocked⟩) => ⟨next, emitted, .failed⟩
    | (next, ⟨emitted, .interrupted⟩) => ⟨next, emitted, .failed⟩
    | (next, ⟨emitted, .failed⟩) => ⟨next, emitted, .failed⟩

/-- The buffer for plaintext has room for every piece. -/
def RoomForAll (entries : List (List UInt8 × List TlsTurn)) : Prop :=
  ∀ entry ∈ entries, entry.1.length ≤ (onlyTurn entry.2).room

theorem prefix_writeOnce (recordBytes : Nat → Nat) (hroom : RoomForAll entries) :
    (writeOnce recordBytes pending entries).wire <+: entries.flatMap Prod.fst := by
  induction entries generalizing pending with
  | nil => exact nil_prefix
  | cons entry entries ih =>
    obtain ⟨piece, turns⟩ := entry
    obtain ⟨hfirst, hrest⟩ := forall_mem_cons.1 hroom
    have hemitted := tlsWrite_emitted recordBytes pending piece (onlyTurn turns)
    rw [take_of_length_le hfirst] at hemitted
    rw [writeOnce, flatMap_cons]
    rcases hcall : tlsWrite recordBytes pending piece (onlyTurn turns) with ⟨next, emitted, answer⟩
    rw [hcall] at hemitted
    dsimp only at hemitted
    subst hemitted
    cases answer with
    | took count => exact (prefix_append_right_inj _).2 (ih hrest)
    | blocked | interrupted | failed => exact prefix_append _ _

theorem writeOnce_done {recordBytes : Nat → Nat}
    (hdone : (writeOnce recordBytes pending entries).ended = .done) :
    (writeOnce recordBytes pending entries).wire.length ≤ (entries.flatMap Prod.fst).length ∧
      ((writeOnce recordBytes pending entries).wire =
          entries.flatMap Prod.fst ↔ RoomForAll entries) := by
  induction entries generalizing pending with
  | nil => simp [writeOnce, RoomForAll]
  | cons entry entries ih =>
    obtain ⟨piece, turns⟩ := entry
    have hemitted := tlsWrite_emitted recordBytes pending piece (onlyTurn turns)
    rw [writeOnce] at hdone ⊢
    rw [flatMap_cons, RoomForAll, forall_mem_cons]
    rcases hcall : tlsWrite recordBytes pending piece (onlyTurn turns) with ⟨next, emitted, answer⟩
    rw [hcall] at hdone hemitted
    dsimp only at hemitted
    subst hemitted
    cases answer with
    | took count =>
      obtain ⟨hle, hiff⟩ := @ih next hdone
      have htaken := length_take_le' (onlyTurn turns).room piece
      simp only [Outcome.after, length_append]
      refine ⟨by omega, fun hwire => ?_, fun hroom => ?_⟩
      · have hlengths := congrArg length hwire
        simp only [length_append, length_take] at hlengths
        have hfirst : piece.length ≤ (onlyTurn turns).room := by omega
        rw [take_of_length_le hfirst] at hwire
        exact ⟨hfirst, hiff.1 (append_cancel_left hwire)⟩
      · obtain ⟨hfirst, hrest⟩ := hroom
        rw [take_of_length_le hfirst, hiff.2 hrest]
    | blocked | interrupted | failed => simp at hdone

section Download

variable (crypto : VmessCrypto) (random : Nat → UInt8)
  (recordBytes : Nat → Nat)

/-- What the TLS layer is given during the download of some pieces, with
`pending` encrypted bytes waiting before; the `n`-th input the encoder writes
meets the calls `turns n`. -/
def tlsDownload (encoder : VmessBodyEncoder) (pieces : List (List UInt8))
    (pending : Nat) (turns : Nat → List TlsTurn) : Outcome Nat UInt8 :=
  if unframed encoder.security encoder.options then
    writeOnce recordBytes pending (scheduled turns 0 pieces)
  else
    inTurn (writeInput recordBytes) pending
      (scheduled turns 0 (encoder.bodyParts crypto random pieces))

def bodyOutput (encoder : VmessBodyEncoder) (pieces : List (List UInt8)) : List UInt8 :=
  if unframed encoder.security encoder.options then pieces.flatten
  else (encoder.bodyParts crypto random pieces).flatten

/-- No call finds room for plaintext and none in the socket; where the body is
unframed, every call has room for its piece. -/
def NeverStalls (encoder : VmessBodyEncoder) (pieces : List (List UInt8))
    (pending : Nat) (turns : Nat → List TlsTurn) : Prop :=
  if unframed encoder.security encoder.options then
    RoomForAll (scheduled turns 0 pieces)
  else
    ∀ input ∈ begun (writeInput recordBytes) pending
        (scheduled turns 0 (encoder.bodyParts crypto random pieces)),
      ∀ offer ∈ offers (tlsWrite recordBytes) input.1 input.2.1 input.2.2,
        ¬ StallsAfterTaking recordBytes offer

/-- A writer below that takes every piece at once gets the same output. -/
theorem bodyOutput_eq {body : Body} {pieces : List (List UInt8)}
    (hbody : writeBody crypto random encoder
      (pieces.map fun piece => ⟨piece, piece.length⟩) = .ok body) :
    bodyOutput crypto random encoder pieces = body.bytes := by
  rw [bodyOutput]
  cases hframed : unframed encoder.security encoder.options with
  | false =>
    have hflatten := encoder.flatten_bodyParts crypto random hframed hbody
    simpa [Function.comp_def] using hflatten
  | true =>
    rw [if_pos rfl]
    exact (encoder.writeBody_unframed crypto random hframed hbody).symm

/-- The TLS layer is given a part of the encoder's output, and all of it when
the download is done, if no call stalls; and a download that is done has given
it exactly that output only if none did. -/
theorem tlsDownload_eq_output_iff (encoder : VmessBodyEncoder)
    (pieces : List (List UInt8)) (pending : Nat) (turns : Nat → List TlsTurn) :
    (NeverStalls crypto random recordBytes encoder pieces pending turns →
      (tlsDownload crypto random recordBytes encoder pieces pending turns).wire
        <+: bodyOutput crypto random encoder pieces) ∧
    ((tlsDownload crypto random recordBytes encoder pieces pending turns).ended = .done →
      ((tlsDownload crypto random recordBytes encoder pieces pending
          turns).wire = bodyOutput crypto random encoder pieces ↔
        NeverStalls crypto random recordBytes encoder pieces pending turns)) ∧
    ∀ body, writeBody crypto random encoder
        (pieces.map fun piece => ⟨piece, piece.length⟩) = .ok body →
      bodyOutput crypto random encoder pieces = body.bytes := by
  rw [← and_assoc]
  refine ⟨?_, fun body => bodyOutput_eq crypto random⟩
  rw [NeverStalls, tlsDownload, bodyOutput]
  split
  · rw [← flatMap_scheduled turns 0 pieces]
    exact ⟨prefix_writeOnce recordBytes, fun hdone => (writeOnce_done hdone).2⟩
  · have hspec := (faithful_tlsWrite recordBytes).measured.wire_spec pending
      (scheduled turns 0 (encoder.bodyParts crypto random pieces))
    simp only [wasted_eq_zero_tlsWrite_iff] at hspec
    rw [← flatMap_scheduled turns 0 (encoder.bodyParts crypto random pieces)]
    exact hspec

end Download

namespace Sample

def plainChunks : VmessBodyEncoder := .new tagCrypto zeroSeed 0x01 .none

theorem plainChunks_parts :
    plainChunks.bodyParts tagCrypto (fun _ => 7) [[7]] = [[0, 1], [7], [], [0, 0], [], []] := by
  have hchunk : plainChunks.chunkParts tagCrypto (fun _ => 7)
      (take maxChunkSize [7]) = (plainChunks, .ok [[0, 1], [7], []]) :=
    rfl
  have hrest : drop maxChunkSize [(7 : UInt8)] = [] := rfl
  rw [VmessBodyEncoder.bodyParts, VmessBodyEncoder.plainParts, dif_neg (by decide), hchunk, hrest]
  dsimp only
  rw [VmessBodyEncoder.plainParts, dif_pos rfl]
  rfl

/-- The socket is full at the first call, and has room at all others. -/
def firstStalls (index : Nat) : List TlsTurn :=
  if index = 0 then [⟨100, []⟩, ⟨100, [.wrote 100]⟩]
  else [⟨100, [.wrote 100]⟩]

/-- The socket always has room. -/
def neverFull (_ : Nat) : List TlsTurn := [⟨100, [.wrote 100]⟩]

end Sample

open Sample

theorem tlsDownload_never_full :
    NeverStalls tagCrypto (fun _ => 7) (· + 22) plainChunks [[7]] 0 neverFull ∧
    (tlsDownload tagCrypto (fun _ => 7) (· + 22) plainChunks
      [[7]] 0 neverFull).wire = [0, 1, 7, 0, 0] := by
  have hdone : (tlsDownload tagCrypto (fun _ => 7) (· + 22)
      plainChunks [[7]] 0 neverFull).ended = .done := by
    rw [tlsDownload, plainChunks_parts]
    decide +kernel
  have hwire : (tlsDownload tagCrypto (fun _ => 7) (· + 22)
      plainChunks [[7]] 0 neverFull).wire = [0, 1, 7, 0, 0] := by
    rw [tlsDownload, plainChunks_parts]
    decide +kernel
  have houtput : bodyOutput tagCrypto (fun _ => 7) plainChunks [[7]] = [0, 1, 7, 0, 0] := by
    rw [bodyOutput, plainChunks_parts]
    decide +kernel
  obtain ⟨-, hiff, -⟩ := tlsDownload_eq_output_iff tagCrypto
    (fun _ => 7) (· + 22) plainChunks [[7]] 0 neverFull
  exact ⟨(hiff hdone).1 (hwire.trans houtput.symm), hwire⟩

/-- The size of the first chunk is in the TLS layer when the socket turns out
to be full; it is offered again. -/
theorem size_is_sent_twice : (tlsDownload tagCrypto (fun _ => 7) (· + 22) plainChunks
      [[7]] 0 firstStalls).ended = .done ∧
    (tlsDownload tagCrypto (fun _ => 7) (· + 22) plainChunks
      [[7]] 0 firstStalls).wire = [0, 1, 0, 1, 7, 0, 0] ∧
    bodyOutput tagCrypto (fun _ => 7) plainChunks [[7]] = [0, 1, 7, 0, 0] := by
  rw [tlsDownload, bodyOutput, plainChunks_parts]
  decide +kernel

end KeliCore
