/-
What a VMess body carries.  The encoder and the decoder step through the same
sizes, paddings and nonces: a chunk as the one writes it is a chunk as the other
takes it apart, and both end up in the same state after it.  So a decoder that
has read part of a body owes the rest of its content.
-/
import KeliCore.VmessBody

namespace KeliCore

open Reading VmessSizeParser List VmessBodyEncoder VmessBodyDecoder

variable {decoder : VmessBodyDecoder}
  {input payload padding : List UInt8}

/-- The encoder can write chunks. -/
def VmessBodyEncoder.Ready (encoder : VmessBodyEncoder) : Prop :=
  encoder.size.Fits encoder.options encoder.security

variable (crypto : VmessCrypto)

/-- A chunk of the wire in the state of an encoder: what its size, its padding
and its payload decode to, and the state after it. -/
structure ChunkOf (encoder next : VmessBodyEncoder)
    (input header payload padding : List UInt8) : Prop where
  header_length : header.length = encoder.size.sizeBytes
  header_decodes : ∃ padded, encoder.size.paddingLen crypto encoder.options =
        (padded, .ok padding.length) ∧
      padded.decode crypto header = (next.size, .ok (.ofNat (payload.length + padding.length)))
  total : payload.length + padding.length ≤ 65535
  payload_length : payload.length = input.length + encoder.security.overhead
  payload_opens : openPayload crypto encoder.security encoder.key encoder.nonce payload =
      (next.nonce, .ok input)
  ready : next.Ready
  same_security : next.security = encoder.security
  same_key : next.key = encoder.key
  same_options : next.options = encoder.options
  same_sizeBytes : next.size.sizeBytes = encoder.size.sizeBytes

variable {crypto}

theorem writeChunk_spec {random : Nat → UInt8} {encoder : VmessBodyEncoder} (hready : encoder.Ready)
    {input : List UInt8} (hinput : input.length ≤ maxChunkSize) :
    ∃ next header payload padding, encoder.writeChunk crypto random input =
        (next, .ok ⟨header, payload, padding, payload.length + padding.length⟩) ∧
      next.finished = encoder.finished ∧
      ChunkOf crypto encoder next input header payload padding := by
  obtain ⟨padded, padding, hpadded, hpadding, hfits, hbytes⟩ := @paddingLen_spec crypto _ _ _ hready
  have hlength := length_sealPayload crypto encoder.security encoder.key encoder.nonce input
  have hopen := openPayload_sealPayload crypto encoder.security encoder.key encoder.nonce input
  generalize hpayload : sealPayload crypto encoder.security encoder.key
    encoder.nonce input = payload at hlength hopen
  -- A full chunk, the tag and the longest padding just fit in sixteen bits.
  have htotal : payload.2.length + padding ≤ 65535 := by
    have hoverhead := encoder.security.overhead_le
    unfold maxChunkSize at hinput
    omega
  have hvalue : (UInt16.ofNat (payload.2.length + padding)).toNat = payload.2.length + padding := by
    rw [UInt16.toNat_ofNat']
    omega
  obtain ⟨coded, header, hcoded, hheader, hdecoded, hfits', hbytes'⟩ :=
    @decode_encode crypto _ _ _ hfits (.ofNat (payload.2.length + padding)) (by rw [hvalue]; omega)
  have hpaddingBytes : ((range padding).map fun index =>
      random (encoder.drawn + index)).length = padding := by simp
  refine ⟨{ encoder with
      size := coded, nonce := payload.1, drawn := encoder.drawn + padding },
    header, payload.2, (range padding).map fun index => random (encoder.drawn + index), ?_, rfl, ?_⟩
  · unfold writeChunk
    simp only [hpadded, hpayload, if_neg (Nat.not_lt.2 htotal), hcoded, hpaddingBytes]
  · refine ⟨hheader.trans hbytes, ⟨padded, ?_, ?_⟩, ?_, hlength, hopen, hfits',
      rfl, rfl, rfl, hbytes'.trans hbytes⟩
    · rw [hpaddingBytes]
      exact hpadded
    · rw [hpaddingBytes]
      exact hdecoded
    · rw [hpaddingBytes]
      exact htotal

/-- The wire of a sequence of chunks, from one state of the encoder to
another. -/
inductive Emits (crypto : VmessCrypto) : VmessBodyEncoder → List (List UInt8) → List UInt8 → Prop
  | last {encoder next : VmessBodyEncoder} {header payload padding}
      (hchunk : ChunkOf crypto encoder next [] header payload padding) :
      Emits crypto encoder [] (header ++ payload ++ padding)
  | chunk {encoder next : VmessBodyEncoder} {input header payload padding}
      {inputs : List (List UInt8)} {wire : List UInt8} (hinput : input ≠ [])
      (hchunk : ChunkOf crypto encoder next input header payload padding)
      (hrest : Emits crypto next inputs wire) :
      Emits crypto encoder (input :: inputs) (header ++ payload ++ padding ++ wire)

variable {encoder : VmessBodyEncoder} {pieces : List (List UInt8)} {wire rest : List UInt8}
  {source : Source UInt8}

theorem Emits.sizeBytes_le (hemits : Emits crypto encoder pieces wire) :
    encoder.size.sizeBytes ≤ wire.length := by
  cases hemits with
  | last hchunk =>
    rw [← hchunk.header_length, append_assoc, length_append]
    exact Nat.le_add_right _ _
  | chunk _ hchunk _ =>
    rw [← hchunk.header_length, append_assoc, append_assoc, length_append]
    exact Nat.le_add_right _ _

theorem writeChunks_spec {random : Nat → UInt8}
    {encoder : VmessBodyEncoder} (hready : encoder.Ready) (input : List UInt8) :
    ∃ next chunks pieces, encoder.writeChunks crypto random input = (next, .ok chunks) ∧
      next.finished = encoder.finished ∧ next.Ready ∧
      next.security = encoder.security ∧ next.options = encoder.options ∧ pieces.flatten = input ∧
      (∀ chunk ∈ chunks, chunk.totalSize ≤ 65535) ∧ ∀ inputs wire, Emits crypto next inputs wire →
        Emits crypto encoder (pieces ++ inputs) (chunks.flatMap WrittenChunk.bytes ++ wire) := by
  induction encoder, input using writeChunks.induct crypto random with
  | case1 encoder =>
    refine ⟨encoder, [], [], ?_, rfl, hready, rfl, rfl, rfl, by simp,
      fun inputs wire hemits => hemits⟩
    rw [writeChunks, dif_pos rfl]
  | case2 encoder input hinput next error hchunk =>
    obtain ⟨_, _, _, _, hwritten, -⟩ :=
      @writeChunk_spec crypto random encoder hready (input.take maxChunkSize) (length_take_le _ _)
    rw [hwritten] at hchunk
    simp at hchunk
  | case3 encoder input hinput next chunk hchunk ih =>
    obtain ⟨after, header, payload, padding, hwritten, hfinished, hof⟩ :=
      @writeChunk_spec crypto random encoder hready (input.take maxChunkSize) (length_take_le _ _)
    rw [hwritten] at hchunk
    cases hchunk
    obtain ⟨final, chunks, pieces, hchunks, hfinished', hready',
      hsecurity, hoptions, hpieces, htot, hemits⟩ := ih hof.ready
    refine ⟨final, ⟨header, payload, padding, payload.length + padding.length⟩ :: chunks,
      input.take maxChunkSize :: pieces, ?_, hfinished'.trans hfinished, hready',
      hsecurity.trans hof.same_security, hoptions.trans hof.same_options, ?_, ?_, ?_⟩
    · rw [writeChunks, dif_neg hinput, hwritten]
      dsimp only
      rw [hchunks]
      rfl
    · rw [flatten_cons, hpieces, take_append_drop]
    · intro chunk hmem
      rcases mem_cons.1 hmem with rfl | hmem
      · exact hof.total
      · exact htot chunk hmem
    · intro inputs wire hrest
      have hpiece : input.take maxChunkSize ≠ [] := by
        rw [Ne, take_eq_nil_iff, not_or]
        exact ⟨by decide, hinput⟩
      have hwire := Emits.chunk hpiece hof (hemits inputs wire hrest)
      rw [← append_assoc] at hwire
      exact hwire

theorem writeBody_framed {random : Nat → UInt8}
    {encoder : VmessBodyEncoder} (hready : encoder.Ready) (hfinished : encoder.finished = false)
    (hframed : unframed encoder.security encoder.options = false) (writes : List BodyWrite) :
    ∃ body pieces, writeBody crypto random encoder writes = .ok body ∧
      Emits crypto encoder pieces body.bytes ∧ pieces.flatten = body.content ∧
      body.content = writes.flatMap BodyWrite.input ∧ ∀ total ∈ body.totalSizes, total ≤ 65535 := by
  induction writes generalizing encoder with
  | nil =>
    have hready' : { encoder with finished := true }.Ready := hready
    obtain ⟨after, header, payload, padding, hwritten, -, hof⟩ :=
      @writeChunk_spec crypto random _ hready' [] (Nat.zero_le _)
    refine ⟨{ bytes := header ++ payload ++ padding
              totalSizes := [payload.length + padding.length] }, [], ?_, ?_,
      rfl, rfl, ?_⟩
    · simp only [writeBody, finish, hfinished, hframed, hwritten]
      rfl
    · exact Emits.last { hof with }
    · intro total hmem
      rw [mem_singleton] at hmem
      rw [hmem]
      exact hof.total
  | cons write writes ih =>
    by_cases hempty : write.input = []
    · obtain ⟨body, pieces, hbody, hemits, hpieces, hcontent, htot⟩ :=
        ih hready hfinished hframed
      refine ⟨body, pieces, ?_, hemits, hpieces, ?_, htot⟩
      · simp only [writeBody, writePlain, hempty, if_true, hbody]
        rfl
      · rw [flatMap_cons, hempty, nil_append, hcontent]
    · obtain ⟨next, chunks, cut, hchunks, hfinished', hready', hsecurity,
        hoptions, hcut, htot', hemits'⟩ :=
        @writeChunks_spec crypto random encoder hready write.input
      obtain ⟨body, pieces, hbody, hemits, hpieces, hcontent, htot⟩ :=
        ih hready' (hfinished'.trans hfinished) (by rw [hsecurity, hoptions]; exact hframed)
      refine ⟨{ bytes := chunks.flatMap WrittenChunk.bytes ++ body.bytes
                content := write.input ++ body.content
                totalSizes := chunks.map WrittenChunk.totalSize ++
                  body.totalSizes }, cut ++ pieces, ?_, hemits' _ _ hemits, ?_, ?_, ?_⟩
      · simp only [writeBody, writePlain, hempty, hframed,
          hchunks, if_false, Bool.false_eq_true, Except.map, hbody, bind,
          Except.bind, pure, Except.pure, take_length]
      · rw [flatten_append, hcut, hpieces]
      · rw [flatMap_cons, hcontent]
      · intro total hmem
        rcases mem_append.1 hmem with hmem | hmem
        · obtain ⟨chunk, hchunk, rfl⟩ := mem_map.1 hmem
          exact htot' chunk hchunk
        · exact htot total hmem

theorem writeBody_unframed {random : Nat → UInt8}
    {encoder : VmessBodyEncoder} (hfinished : encoder.finished = false)
    (hunframed : unframed encoder.security encoder.options = true) (writes : List BodyWrite) :
    ∃ body, writeBody crypto random encoder writes = .ok body ∧
      body.bytes = body.content ∧ body.totalSizes = [] ∧
      body.content = writes.flatMap fun write => write.input.take write.taken := by
  induction writes with
  | nil =>
    refine ⟨{}, ?_, rfl, rfl, rfl⟩
    simp only [writeBody, finish, hfinished, hunframed]
    rfl
  | cons write writes ih =>
    obtain ⟨body, hbody, hbytes, htot, hcontent⟩ := ih
    by_cases hempty : write.input = []
    · refine ⟨body, ?_, hbytes, htot, ?_⟩
      · simp only [writeBody, writePlain, hempty, if_true, hbody]
        rfl
      · rw [flatMap_cons, hempty, take_nil, nil_append, hcontent]
    · have htaken : write.input.take (write.input.take write.taken).length =
          write.input.take write.taken := by
        rw [length_take, ← take_take, take_length]
      refine ⟨{ bytes := write.input.take write.taken ++ body.bytes
                content := write.input.take write.taken ++ body.content }, ?_, ?_, rfl, ?_⟩
      · simp only [writeBody, writePlain, hempty, hunframed, if_false, if_true, hbody, htot,
          htaken, bind, Except.bind, pure, Except.pure, append_nil]
      · rw [hbytes]
      · rw [flatMap_cons, hcontent]

structure Mirrors (decoder : VmessBodyDecoder) (encoder : VmessBodyEncoder) : Prop where
  security : decoder.security = encoder.security
  key : decoder.key = encoder.key
  options : decoder.options = encoder.options
  size : decoder.size = encoder.size
  framed : unframed decoder.security decoder.options = false

/-- Between two chunks: part of a size may have arrived, and what was opened
last may not all have been handed out. -/
structure Between (crypto : VmessCrypto) (decoder : VmessBodyDecoder)
    (source : Source UInt8) (encoder : VmessBodyEncoder)
    (pieces : List (List UInt8)) (wire rest : List UInt8) : Prop where
  mirrors : Mirrors decoder encoder
  nonce : decoder.nonce = encoder.nonce
  emits : Emits crypto encoder pieces wire
  eof : decoder.eof = false
  chunkLen : decoder.chunkLen = 0
  sizeRead : decoder.sizeRead.length ≤ decoder.size.sizeBytes
  bytes : decoder.sizeRead ++ source.bytes = wire ++ rest

/-- Inside a chunk, which opens to the input; the encoder is past it. -/
structure Inside (crypto : VmessCrypto) (decoder : VmessBodyDecoder)
    (source : Source UInt8) (input payload padding : List UInt8)
    (encoder : VmessBodyEncoder) (pieces : List (List UInt8)) (wire rest : List UInt8) : Prop where
  mirrors : Mirrors decoder encoder
  opens : openPayload crypto decoder.security decoder.key decoder.nonce
    payload = (encoder.nonce, .ok input)
  input : input ≠ []
  emits : Emits crypto encoder pieces wire
  eof : decoder.eof = false
  buffer : decoder.buffer = []
  sizeRead : decoder.sizeRead = []
  chunkLen : decoder.chunkLen = payload.length + padding.length
  chunkLen_pos : decoder.chunkLen ≠ 0
  chunkPadding : decoder.chunkPadding = padding.length
  chunkRead : decoder.chunkRead.length ≤ decoder.chunkLen
  bytes : decoder.chunkRead ++ source.bytes = payload ++ padding ++ (wire ++ rest)

/-- The bytes a framed decoder still has to hand out. -/
inductive Owes (crypto : VmessCrypto) (decoder : VmessBodyDecoder)
    (source : Source UInt8) (owed : List UInt8) : Prop
  | ended (hframed : unframed decoder.security decoder.options = false)
      (heof : decoder.eof = true) (howed : owed = decoder.buffer)
  | between {encoder : VmessBodyEncoder} {pieces : List (List UInt8)} {wire rest : List UInt8}
      (hstate : Between crypto decoder source encoder pieces wire rest)
      (howed : owed = decoder.buffer ++ pieces.flatten)
  | inside {input payload padding : List UInt8} {encoder : VmessBodyEncoder}
      {pieces : List (List UInt8)} {wire rest : List UInt8}
      (hstate : Inside crypto decoder source input payload padding encoder pieces wire rest)
      (howed : owed = input ++ pieces.flatten)

theorem Inside.openChunk (hstate : Inside crypto decoder source input payload padding encoder pieces
      wire rest) (hfull : decoder.chunkRead.length = decoder.chunkLen) :
    ∃ next, decoder.openChunk crypto = (next, .ok ()) ∧ next.buffer = input ∧
      Between crypto next source encoder pieces wire rest := by
  have hparts : decoder.chunkRead = payload ++ padding ∧ source.bytes = wire ++ rest := by
    apply append_inj hstate.bytes
    rw [hfull, hstate.chunkLen, length_append]
  have htake : decoder.chunkRead.take (decoder.chunkLen - decoder.chunkPadding) = payload := by
    rw [hparts.1, hstate.chunkLen, hstate.chunkPadding, Nat.add_sub_cancel, take_left]
  refine ⟨{ decoder with
    nonce := encoder.nonce, buffer := input, chunkLen := 0, chunkRead := []
    chunkPadding := 0 }, ?_, rfl, ?_⟩
  · unfold VmessBodyDecoder.openChunk
    simp only [htake, hstate.opens]
  · refine ⟨{ hstate.mirrors with }, rfl, hstate.emits, hstate.eof, rfl, ?_, ?_⟩
    · rw [hstate.sizeRead]
      exact Nat.zero_le _
    · rw [hstate.sizeRead, hparts.2]
      rfl

theorem Inside.readChunk
    (hstate : Inside crypto decoder source input payload padding encoder pieces wire rest) :
    ∃ next left, left.blocks ≤ source.blocks ∧
      ((decoder.readChunk crypto source = (next, left, .error wouldBlock) ∧
          left.blocks < source.blocks ∧
          Inside crypto next left input payload padding encoder pieces wire rest) ∨
        (decoder.readChunk crypto source = (next, left, .ok ()) ∧ next.buffer = input ∧
          Between crypto next left encoder pieces wire rest)) := by
  obtain ⟨hmoved, -, hstop⟩ := fill_spec decoder.chunkLen decoder.chunkRead
    source hstate.chunkRead
  unfold VmessBodyDecoder.readChunk
  dsimp only
  generalize fill decoder.chunkLen decoder.chunkRead source = fill at hmoved hstop
  have hbytes : fill.filled ++ fill.source.bytes =
      payload ++ padding ++ (wire ++ rest) := hmoved.trans hstate.bytes
  cases hend : fill.stopped with
  | blocked =>
    rw [hend] at hstop
    refine ⟨_, _, hstop.2.le, .inl ⟨rfl, hstop.2, ?_⟩⟩
    exact { hstate with
      mirrors := { hstate.mirrors with }
      chunkRead := hstop.1.le
      bytes := hbytes }
  | ended =>
    -- The chunk is on the wire, so the source cannot end inside it.
    rw [hend] at hstop
    have hlength := congrArg length hbytes
    have hlen := hstate.chunkLen
    rw [hstop.2] at hlength
    simp only [Source.bytes, append_nil, length_append] at hlength
    omega
  | full =>
    rw [hend] at hstop
    have hnext : Inside crypto { decoder with chunkRead := fill.filled }
        fill.source input payload padding encoder pieces wire rest :=
      { hstate with
        mirrors := { hstate.mirrors with }
        chunkRead := hstop.1.le
        bytes := hbytes }
    obtain ⟨next, hopen, hbuffer, hmid⟩ := hnext.openChunk hstop.1
    refine ⟨next, fill.source, hstop.2.le, .inr ⟨?_, hbuffer, hmid⟩⟩
    rw [hopen]

theorem ChunkOf.beginChunk {header : List UInt8} {after : VmessBodyEncoder}
    (hof : ChunkOf crypto encoder after input header payload padding)
    (hmirrors : Mirrors decoder encoder) (hheader : decoder.sizeRead = header) :
    decoder.beginChunk crypto = if input = [] then
        ({ decoder with size := after.size, sizeRead := [], eof := true }, .ok ())
      else ({ decoder with
          size := after.size, sizeRead := []
          chunkLen := payload.length + padding.length, chunkRead := []
          chunkPadding := padding.length }, .ok ()) := by
  obtain ⟨padded, hpadded, hdecoded⟩ := hof.header_decodes
  have htotal : (UInt16.ofNat (payload.length + padding.length)).toNat =
      payload.length + padding.length := by
    have := hof.total
    rw [UInt16.toNat_ofNat']
    omega
  have hpayload := hof.payload_length
  unfold VmessBodyDecoder.beginChunk
  simp only [hmirrors.size, hmirrors.options, hmirrors.security, hheader, hpadded, hdecoded, htotal]
  cases input with
  | nil =>
    rw [length_nil] at hpayload
    rw [if_pos (by omega), if_pos rfl]
  | cons first tail =>
    rw [length_cons] at hpayload
    rw [if_neg (by omega), if_neg (by omega), if_neg (by simp)]

/-- What a turn of the loop of `read_plain` does to a decoder that owes some
bytes: it blocks, or it has bytes to hand out, or it is at the end. -/
def Turns (crypto : VmessCrypto) (decoder : VmessBodyDecoder)
    (source : Source UInt8) (owed : List UInt8) : Prop :=
  ∃ next left, left.blocks ≤ source.blocks ∧ Owes crypto next left owed ∧
    ((decoder.readNextChunk crypto source = (next, left, .error wouldBlock) ∧
        left.blocks < source.blocks) ∨ (decoder.readNextChunk crypto source = (next, left, .ok ()) ∧
        (next.eof = true ∨ next.buffer ≠ [])))

theorem Inside.turns
    (hstate : Inside crypto decoder source input payload padding encoder pieces wire rest) :
    Turns crypto decoder source (input ++ pieces.flatten) := by
  have hread : decoder.readNextChunk crypto source = decoder.readChunk crypto source := by
    unfold readNextChunk
    rw [if_neg (by simp [hstate.eof]), if_pos hstate.chunkLen_pos]
  obtain ⟨next, left, hblocks, ⟨hblocked, hless, hnext⟩ |
    ⟨hopened, hbuffer, hnext⟩⟩ := hstate.readChunk
  · exact ⟨next, left, hblocks, .inside hnext rfl, .inl ⟨hread.trans hblocked, hless⟩⟩
  · refine ⟨next, left, hblocks, .between hnext (by rw [hbuffer]),
      .inr ⟨hread.trans hopened, .inr ?_⟩⟩
    rw [hbuffer]
    exact hstate.input

theorem Between.turns (hstate : Between crypto decoder source encoder pieces wire rest)
    (hbuffer : decoder.buffer = []) : Turns crypto decoder source pieces.flatten := by
  obtain ⟨hmoved, -, hstop⟩ := fill_spec decoder.size.sizeBytes
    decoder.sizeRead source hstate.sizeRead
  unfold Turns readNextChunk
  rw [if_neg (by simp [hstate.eof]), if_neg (by simp [hstate.chunkLen])]
  dsimp only
  generalize fill decoder.size.sizeBytes decoder.sizeRead source = fill at hmoved hstop
  have hbytes : fill.filled ++ fill.source.bytes = wire ++ rest := hmoved.trans hstate.bytes
  cases hend : fill.stopped with
  | blocked =>
    rw [hend] at hstop
    have hnext : Between crypto { decoder with sizeRead := fill.filled }
        fill.source encoder pieces wire rest :=
      { hstate with
        mirrors := { hstate.mirrors with }
        sizeRead := hstop.1.le
        bytes := hbytes }
    exact ⟨_, _, hstop.2.le, .between hnext (by dsimp only; rw [hbuffer]; rfl),
      .inl ⟨rfl, hstop.2⟩⟩
  | ended =>
    -- The end of the body is on the wire, and it starts with a size.
    rw [hend] at hstop
    have hlength := congrArg length hbytes
    have hwire := hstate.emits.sizeBytes_le
    rw [hstop.2] at hlength
    rw [← hstate.mirrors.size] at hwire
    simp only [Source.bytes, append_nil, length_append] at hlength
    omega
  | full =>
    rw [hend, hstate.mirrors.size] at hstop
    obtain ⟨hfull, hblocks⟩ := hstop
    have hmirrors : Mirrors { decoder with sizeRead := fill.filled }
      encoder := { hstate.mirrors with }
    have hemits := hstate.emits
    cases hemits with
    | last hchunk =>
      rename_i after header payload padding
      have hheader : fill.filled = header := by
        rw [append_assoc, append_assoc] at hbytes
        exact (append_inj hbytes (hfull.trans hchunk.header_length.symm)).1
      dsimp only
      rw [hchunk.beginChunk hmirrors hheader, if_pos rfl]
      dsimp only
      exact ⟨{ decoder with size := after.size, sizeRead := [], eof := true },
        fill.source, hblocks.le, .ended hstate.mirrors.framed rfl hbuffer.symm,
        .inr ⟨rfl, .inl rfl⟩⟩
    | chunk hinput hchunk hrest =>
      rename_i after input header payload padding pieces wire
      have hparts : fill.filled = header ∧ fill.source.bytes =
          payload ++ padding ++ (wire ++ rest) := by
        apply append_inj _ (hfull.trans hchunk.header_length.symm)
        rw [hbytes]
        simp only [append_assoc]
      dsimp only
      rw [hchunk.beginChunk hmirrors hparts.1, if_neg hinput]
      dsimp only
      rw [if_neg (by simp [hstate.eof])]
      have hnext : Inside crypto { decoder with
            size := after.size, sizeRead := []
            chunkLen := payload.length + padding.length, chunkRead := []
            chunkPadding := padding.length }
          fill.source input payload padding after pieces wire rest :=
        { mirrors :=
            { security := hstate.mirrors.security.trans hchunk.same_security.symm
              key := hstate.mirrors.key.trans hchunk.same_key.symm
              options := hstate.mirrors.options.trans hchunk.same_options.symm
              size := rfl
              framed := hstate.mirrors.framed }
          opens := by
            dsimp only
            rw [hstate.mirrors.security, hstate.mirrors.key, hstate.nonce]
            exact hchunk.payload_opens
          input := hinput
          emits := hrest
          eof := hstate.eof
          buffer := hbuffer
          sizeRead := rfl
          chunkLen := rfl
          chunkLen_pos := by
            have hlength := hchunk.payload_length
            have hpos := length_pos_iff.2 hinput
            dsimp only
            omega
          chunkPadding := rfl
          chunkRead := Nat.zero_le _
          bytes := hparts.2 }
      obtain ⟨next, left, hleft, ⟨hblocked, hless, hnext⟩ |
        ⟨hopened, hopen, hnext⟩⟩ := hnext.readChunk
      · exact ⟨next, left, by omega, .inside hnext rfl, .inl ⟨hblocked, by omega⟩⟩
      · refine ⟨next, left, by omega, .between hnext (by rw [hopen]; rfl), .inr ⟨hopened, .inr ?_⟩⟩
        rw [hopen]
        exact hinput

theorem fillBuffer_done
    (hready : decoder.eof = true ∨ decoder.buffer ≠ []) (source : Source UInt8) :
    decoder.fillBuffer crypto source = (decoder, source, .ok ()) := by
  rw [VmessBodyDecoder.fillBuffer, dif_neg]
  rintro ⟨hbuffer, heof⟩
  rcases hready with hend | hmore
  · simp [heof] at hend
  · exact hmore hbuffer

section

variable {owed : List UInt8} (howes : Owes crypto decoder source owed)

include howes

/-- The loop of `read_plain` blocks, or has bytes to hand out, or is at the
end. -/
theorem Owes.fillBuffer : ∃ next left, left.blocks ≤ source.blocks ∧ Owes crypto next left owed ∧
      ((decoder.fillBuffer crypto source = (next, left, .error wouldBlock) ∧
          left.blocks < source.blocks) ∨ (decoder.fillBuffer crypto source = (next, left, .ok ()) ∧
          (next.eof = true ∨ next.buffer ≠ []))) := by
  by_cases hturn : decoder.buffer = [] ∧ decoder.eof = false
  · have hturns : Turns crypto decoder source owed := by
      cases howes with
      | ended _ heof _ => simp [heof] at hturn
      | between hstate howed =>
        rw [howed, hturn.1]
        exact hstate.turns hturn.1
      | inside hstate howed =>
        rw [howed]
        exact hstate.turns
    obtain ⟨next, left, hblocks, hnext, ⟨hread, hless⟩ | ⟨hread, hready⟩⟩ := hturns
    · refine ⟨next, left, hblocks, hnext, .inl ⟨?_, hless⟩⟩
      rw [VmessBodyDecoder.fillBuffer, dif_pos hturn]
      split <;> simp_all
    · refine ⟨next, left, hblocks, hnext, .inr ⟨?_, hready⟩⟩
      rw [VmessBodyDecoder.fillBuffer, dif_pos hturn]
      split
      · simp_all
      next after rest hturned =>
        rw [hread, Prod.mk.injEq, Prod.mk.injEq] at hturned
        obtain ⟨rfl, rfl, -⟩ := hturned
        split
        · rfl
        · exact fillBuffer_done hready left
  · have hready : decoder.eof = true ∨ decoder.buffer ≠ [] := by
      by_cases hbuffer : decoder.buffer = []
      · exact .inl (by simpa [hbuffer] using hturn)
      · exact .inr hbuffer
    exact ⟨decoder, source, Nat.le_refl _, howes, .inr ⟨fillBuffer_done hready source, hready⟩⟩

theorem Owes.handOut (hready : decoder.eof = true ∨ decoder.buffer ≠ []) (room : Nat) :
    ∃ rest, decoder.buffer.take room ++ rest = owed ∧
      Owes crypto { decoder with buffer := decoder.buffer.drop room } source
        rest := by
  cases howes with
  | ended hframed heof howed =>
    refine ⟨decoder.buffer.drop room, ?_, .ended hframed heof rfl⟩
    rw [howed, take_append_drop]
  | between hstate howed =>
    rename_i encoder pieces wire rest
    refine ⟨decoder.buffer.drop room ++ pieces.flatten, ?_, ?_⟩
    · rw [howed, ← append_assoc, take_append_drop]
    · exact .between { hstate with mirrors := { hstate.mirrors with } } rfl
  | inside hstate howed => simp [hstate.buffer, hstate.eof] at hready

theorem Owes.framed : unframed decoder.security decoder.options = false := by
  cases howes with
  | ended hframed _ _ => exact hframed
  | between hstate _ | inside hstate _ => exact hstate.mirrors.framed

/-- Only a decoder at the end owes nothing while it has nothing to hand out. -/
theorem Owes.eq_nil (heof : decoder.eof = true) (hbuffer : decoder.buffer = []) : owed = [] := by
  cases howes with
  | ended _ _ howed => exact howed.trans hbuffer
  | between hstate _ | inside hstate _ => simp [hstate.eof] at heof

end

theorem delivers_framed (crypto : VmessCrypto) : Delivers (readPlain crypto) IoError.isWouldBlock
      fun reader owed blocks => Owes crypto reader.1 reader.2 owed ∧ reader.2.blocks ≤ blocks := by
  rintro ⟨decoder, source⟩ owed blocks room ⟨howes, hblocks⟩ hroom
  dsimp only at howes hblocks
  obtain ⟨next, left, hleft, hnext, ⟨hread, hless⟩ | ⟨hread, hready⟩⟩ := howes.fillBuffer
  · right
    refine ⟨(next, left), wouldBlock, left.blocks, ?_, rfl, by omega, hnext, Nat.le_refl _⟩
    simp only [readPlain, if_neg (Nat.ne_of_gt hroom), howes.framed, hread]
    rfl
  · left
    obtain ⟨rest, hrest, howed⟩ := hnext.handOut hready room
    refine ⟨({ next with buffer := next.buffer.drop room }, left),
      next.buffer.take room, rest, ?_, hrest, fun hnil => ?_, howed, ?_⟩
    · simp only [readPlain, if_neg (Nat.ne_of_gt hroom), howes.framed, hread]
      rfl
    · have hbuffer : next.buffer = [] := by
        rw [take_eq_nil_iff] at hnil
        rcases hnil with hzero | hbuffer
        · omega
        · exact hbuffer
      rcases hready with heof | hmore
      · exact hnext.eq_nil heof hbuffer
      · exact absurd hbuffer hmore
    · dsimp only
      omega

theorem delivers_unframed (crypto : VmessCrypto) :
    Delivers (readPlain crypto) IoError.isWouldBlock fun reader owed blocks =>
        unframed reader.1.security reader.1.options = true ∧
          reader.2.bytes = owed ∧ reader.2.blocks = blocks := by
  rintro ⟨decoder, source⟩ owed blocks room ⟨hunframed, hbytes, hblocks⟩ hroom
  dsimp only at hunframed hbytes hblocks
  have hread : ∀ rest answer, source.read room = (rest, answer) →
      readPlain crypto (decoder, source) room =
        ((decoder, rest), answer.elim (.error wouldBlock) .ok) := by
    intro rest answer hsource
    rw [readPlain, if_neg (Nat.ne_of_gt hroom), hunframed]
    cases answer <;> simp [hsource]
  rcases hsource : source.read room with ⟨rest, _ | piece⟩
  · right
    obtain ⟨hsame, hless⟩ := Source.read_none hsource
    exact ⟨_, _, rest.blocks, hread _ _ hsource, rfl, by omega, hunframed, hsame.trans hbytes, rfl⟩
  · left
    obtain ⟨hsplit, -, hsame⟩ := Source.read_some hsource
    refine ⟨_, _, rest.bytes, hread _ _ hsource, hsplit.trans hbytes, fun hnil => ?_,
      hunframed, rfl, hsame.trans hblocks⟩
    rw [hnil] at hsource
    rw [← hbytes, (Source.read_end hroom hsource).1]
    rfl

/-- For all options that a request may have, all writes and all randomness: the
body is written, in chunks whose sizes fit in sixteen bits, and however its
bytes arrive, a reader gets what was written, or of an unframed body what the
writer below took, and then the end, even if more bytes follow the body. -/
theorem vmess_body_round_trip (crypto : VmessCrypto) (random : Nat → UInt8)
    (seed : BodySeed) (command : VmessCommand) (security : VmessSecurity) (options : UInt8)
    (haccepted : checkRequestOptions command security options = .ok ()) (writes : List BodyWrite) :
    ∃ body, writeBody crypto random (.new crypto seed options security) writes = .ok body ∧
      (body.content = writes.flatMap fun write =>
        if unframed security options then write.input.take write.taken else write.input) ∧
      (∀ total ∈ body.totalSizes, total ≤ 65535) ∧
      ∀ (source : Source UInt8) (trailing : List UInt8), source.bytes = body.bytes ++ trailing →
        (unframed security options = true → trailing = []) →
        ∀ rooms, Complete (Run.exec (pull (VmessBodyDecoder.readPlain crypto) IoError.isWouldBlock)
            { reader := (.new crypto seed options security, source) } rooms) body.content
          (body.content.length + source.blocks < rooms.length) := by
  have hfits := @new_fits crypto options security seed.iv seed.lengthKeySeed
    seed.lengthIvSeed (masking_of_accepted haccepted)
  cases hframed : unframed security options with
  | false =>
    obtain ⟨body, pieces, hbody, hemits, hpieces, hcontent, htot⟩ :=
      @writeBody_framed crypto random (.new crypto seed options security) hfits rfl hframed writes
    refine ⟨body, hbody, hcontent, htot, ?_⟩
    intro source trailing hbytes _ rooms
    have hstate : Between crypto (.new crypto seed options security) source
        (.new crypto seed options security) pieces body.bytes trailing :=
      ⟨⟨rfl, rfl, rfl, rfl, hframed⟩, rfl, hemits, rfl, rfl, Nat.zero_le _, hbytes⟩
    have howes : Owes crypto (.new crypto seed options security) source body.content :=
      .between hstate (by rw [hpieces]; rfl)
    exact (delivers_framed crypto).complete ⟨howes, Nat.le_refl _⟩ rooms
  | true =>
    obtain ⟨body, hbody, hcontent, htot, htaken⟩ :=
      @writeBody_unframed crypto random (.new crypto seed options security) rfl hframed writes
    refine ⟨body, hbody, htaken, by simp [htot], ?_⟩
    intro source trailing hbytes htrailing rooms
    rw [htrailing rfl, append_nil, hcontent] at hbytes
    exact (delivers_unframed crypto).complete ⟨hframed, hbytes, rfl⟩ rooms

namespace Sample

/-- A cipher that appends a tag of zeros. -/
def tagOnly : Aead where
  encrypt _ _ text := text ++ List.replicate 16 0
  decrypt _ _ text := some (text.take (text.length - 16))
  decrypt_encrypt _ _ text := by simp
  length_encrypt _ _ text := by simp

def tagCrypto : VmessCrypto where
  aesGcm := tagOnly
  chaCha20 := tagOnly
  kdf16 _ _ := 0
  shake128 _ position := .ofNat (40503 * position)

def zeroSeed : BodySeed := ⟨0, 0, 0, 0⟩

end Sample

open Sample

theorem vmess_body_round_trip_blocked : ∃ body, writeBody tagCrypto (fun _ => 7)
        (.new tagCrypto zeroSeed 0x1d .aes128Gcm) [⟨[1, 2], 0⟩, ⟨[3], 0⟩] = .ok body ∧
      (Run.exec (pull (VmessBodyDecoder.readPlain tagCrypto) IoError.isWouldBlock)
        { reader := (.new tagCrypto zeroSeed 0x1d .aes128Gcm,
          .wouldBlock :: Source.putBack body.bytes []) } [0, 0, 0, 0, 0]).got = [1, 2, 3] := by
  obtain ⟨body, hbody, hcontent, -, hread⟩ :=
    vmess_body_round_trip tagCrypto (fun _ => 7) zeroSeed .tcp
      .aes128Gcm 0x1d (by decide) [⟨[1, 2], 0⟩, ⟨[3], 0⟩]
  have hwritten : body.content = [1, 2, 3] := hcontent
  have hcomplete := hread (.wouldBlock :: Source.putBack body.bytes []) []
    (by simp [Source.bytes]) (fun _ => rfl) [0, 0, 0, 0, 0]
  refine ⟨body, hbody, ?_⟩
  rw [hwritten] at hcomplete
  apply hcomplete.whole
  apply hcomplete.ends
  simp [Source.blocks]

end KeliCore
