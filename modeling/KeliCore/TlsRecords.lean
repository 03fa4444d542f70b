/-
The TLS connection of the blocking servers.  It hands the TLS library one whole
record at a time and reads no byte behind it, so that a relay can leave TLS
between two records.
-/
import KeliCore.Bytes
import KeliCore.Reading

namespace KeliCore

open Reading List

/-- `tls_record_buf` and `tls_record_target_len` of a connection, with its
socket; what the TLS library has made of the records so far and was not read
yet, and how many records it was given. -/
structure TlsConnection where
  socket : Source UInt8
  recordBuf : List UInt8 := []
  recordTargetLen : Option Nat := none
  opened : Nat := 0
  plaintext : List UInt8 := []

namespace TlsConnection

def tlsHeaderLen : Nat := 5

def maxTlsRecordLen : Nat := 18 * 1024

/-- The length of a record's content, from its header. -/
def contentLen (record : List UInt8) : Nat :=
  (record.getD 3 0).toNat <<< 8 ||| (record.getD 4 0).toNat

/-- The loop that fills the buffer up to the end of the record. -/
def readBody (target : Nat) (filled : List UInt8) (source : Source UInt8) : Fill UInt8 :=
  if _ : filled.length < target then
    match source.read (min (target - filled.length) (16 * 1024)) with
    | (next, none) => ⟨filled, next, .blocked⟩
    | (next, some []) => ⟨filled, next, .ended⟩
    | (next, some (first :: rest)) => readBody target (filled ++ first :: rest) next
  else ⟨filled, source, .full⟩
termination_by target - filled.length
decreasing_by
  simp only [List.length_append, List.length_cons]
  omega

/-- The header of the next record, and the length of the whole of it; no length
is the end between two records. -/
def readTarget (connection : TlsConnection) : TlsConnection × Except IoError (Option Nat) :=
  match connection.recordTargetLen with
  | some target => (connection, .ok (some target))
  | none =>
    let fill := fill tlsHeaderLen connection.recordBuf connection.socket
    let connection :=
      { connection with recordBuf := fill.filled, socket := fill.source }
    match fill.stopped with
    | .blocked => (connection, .error wouldBlock)
    | .ended =>
      if fill.filled = [] then (connection, .ok none)
      else
        (connection, .error ⟨.unexpectedEof, "tls socket closed during record header"⟩)
    | .full =>
      let length := contentLen fill.filled
      if maxTlsRecordLen < length then
        (connection, .error ⟨.invalidData, "tls record too large: " ++ toString length⟩)
      else
        ({ connection with recordTargetLen := some (tlsHeaderLen + length) },
          .ok (some (tlsHeaderLen + length)))

def readTlsRecordLimited (connection : TlsConnection) :
    TlsConnection × Except IoError (List UInt8) :=
  match connection.readTarget with
  | (connection, .error error) => (connection, .error error)
  | (connection, .ok none) => (connection, .ok [])
  | (connection, .ok (some target)) =>
    let fill := readBody target connection.recordBuf connection.socket
    match fill.stopped with
    | .blocked =>
      ({ connection with recordBuf := fill.filled, socket := fill.source }, .error wouldBlock)
    | .ended =>
      ({ connection with recordBuf := fill.filled, socket := fill.source },
        .error ⟨.unexpectedEof, "tls socket closed during record body"⟩)
    | .full =>
      ({ connection with
          socket := fill.source, recordBuf := [], recordTargetLen := none },
        .ok fill.filled)

/-- Reading in pieces of at most 16 KiB makes no difference to the result. -/
theorem readBody_eq_fill (target : Nat) (filled : List UInt8) (source : Source UInt8) :
    readBody target filled source = fill target filled source := by
  induction filled, source using readBody.induct target with
  | case1 filled source hroom next hread =>
    rw [readBody, dif_pos hroom, hread, fill, dif_pos hroom]
    cases source with
    | nil => simp [Source.read] at hread
    | cons event events =>
      cases event with
      | wouldBlock =>
        cases hread
        rfl
      | data first rest => simp [Source.read] at hread
  | case2 filled source hroom next hread =>
    rw [readBody, dif_pos hroom, hread, fill, dif_pos hroom]
    obtain ⟨rfl, rfl⟩ := Source.read_end (by omega) hread
    rfl
  | case3 filled source hroom next first rest hread ih =>
    rw [readBody, dif_pos hroom, hread]
    dsimp only
    rw [ih]
    cases source with
    | nil => simp [Source.read] at hread
    | cons event events =>
      cases event with
      | wouldBlock => simp [Source.read] at hread
      | data head tail =>
        obtain ⟨rfl, hpiece⟩ := Prod.mk.inj hread
        rw [← Option.some.inj hpiece]
        exact fill_piece (Nat.min_le_left _ _) hroom head tail events
  | case4 filled source hroom => rw [readBody, dif_neg hroom, fill, dif_neg hroom]

structure IsRecord (record : List UInt8) : Prop where
  length : record.length = tlsHeaderLen + contentLen record
  fits : contentLen record ≤ maxTlsRecordLen

/-- The socket has these records and then bytes that are none.  What was read
of the next record is in the buffer; behind the last one nothing was read. -/
structure Between (connection : TlsConnection) (records : List (List UInt8))
    (raw : List UInt8) : Prop where
  stream : connection.recordBuf ++ connection.socket.bytes = records.flatten ++ raw
  valid : ∀ record ∈ records, IsRecord record
  idle : records = [] → connection.recordBuf = []
  header : connection.recordTargetLen = none → connection.recordBuf.length < tlsHeaderLen
  target : ∀ target, connection.recordTargetLen = some target →
    connection.recordBuf.length < target ∧
      ∃ first rest, records = first :: rest ∧ first.length = target

variable {left record rest raw : List UInt8} {records : List (List UInt8)}

theorem contentLen_of_prefix {filled : List UInt8}
    (hbytes : filled ++ left = record ++ rest) (hfilled : tlsHeaderLen ≤ filled.length)
    (hrecord : tlsHeaderLen ≤ record.length) : contentLen filled = contentLen record := by
  have hget : ∀ i < tlsHeaderLen, filled.getD i 0 = record.getD i 0 := by
    intro i hi
    have hboth : (filled ++ left).getD i 0 = (record ++ rest).getD i 0 := by rw [hbytes]
    rw [getD_eq_getElem?_getD, getD_eq_getElem?_getD,
      getElem?_append_left (by omega), getElem?_append_left (by omega)] at hboth
    exact hboth
  rw [contentLen, contentLen, hget 3 (by decide), hget 4 (by decide)]

section Read

/-- What of a connection the records do not touch. -/
structure SameText (before after : TlsConnection) : Prop where
  opened : after.opened = before.opened
  plaintext : after.plaintext = before.plaintext

variable {connection : TlsConnection}

/-- The header of a record: there is nothing yet, or no record any more, or the
target is the end of the next one. -/
theorem Between.readTarget (hmid : Between connection records raw)
    (hmore : records ≠ [] ∨ raw = []) : (∃ next, connection.readTarget = (next, .error wouldBlock) ∧
      Between next records raw ∧ next.socket.blocks < connection.socket.blocks ∧
      SameText connection next) ∨ (∃ next, connection.readTarget = (next, .ok none) ∧ records = [] ∧
      raw = [] ∧ next.socket = [] ∧ next.recordBuf = [] ∧ SameText connection next) ∨
    ∃ next first rest, records = first :: rest ∧
      connection.readTarget = (next, .ok (some first.length)) ∧
      next.recordBuf ++ next.socket.bytes = records.flatten ++ raw ∧
      next.recordBuf.length ≤ first.length ∧ next.recordTargetLen = some first.length ∧
      next.socket.blocks ≤ connection.socket.blocks ∧ SameText connection next := by
  have hnothing : records = [] → records.flatten ++ raw = [] := by
    intro hnone
    rcases hmore with hsome | hraw
    · exact absurd hnone hsome
    · rw [hnone, hraw]
      rfl
  rw [TlsConnection.readTarget]
  cases htarget : connection.recordTargetLen with
  | some target =>
    obtain ⟨hless, first, rest, hrecords, rfl⟩ := hmid.target _ htarget
    exact .inr (.inr ⟨connection, first, rest, hrecords, rfl,
      hmid.stream, hless.le, htarget, Nat.le_refl _, rfl, rfl⟩)
  | none =>
    have hshort := hmid.header htarget
    obtain ⟨hmoved, -, hstop⟩ := fill_spec tlsHeaderLen
      connection.recordBuf connection.socket hshort.le
    dsimp only
    generalize fill tlsHeaderLen connection.recordBuf connection.socket = filling at hmoved hstop
    obtain ⟨filled, source, stopped⟩ := filling
    dsimp only at hmoved hstop
    rw [hmid.stream] at hmoved
    cases stopped with
    | blocked =>
      refine .inl ⟨_, rfl, ⟨hmoved, hmid.valid, ?_, ?_, ?_⟩, hstop.2, rfl, rfl⟩
      · intro hnone
        rw [hnothing hnone, append_eq_nil_iff] at hmoved
        exact hmoved.1
      · exact fun _ => hstop.1
      · exact fun target hsome => absurd hsome nofun
    | ended =>
      obtain ⟨hless, rfl⟩ := hstop
      rw [Source.bytes, append_nil] at hmoved
      have hnone : records = [] := by
        by_contra hsome
        obtain ⟨first, rest, rfl⟩ := exists_cons_of_ne_nil hsome
        have hlength := (hmid.valid first (by simp)).length
        rw [hmoved, flatten_cons, length_append, length_append] at hless
        omega
      rw [hnothing hnone] at hmoved
      have hraw : raw = [] := by
        have hflat := hnothing hnone
        rw [hnone] at hflat
        exact hflat
      refine .inr (.inl ⟨{ connection with
        recordBuf := filled, socket := [] }, ?_, hnone, hraw, rfl, hmoved,
        rfl, rfl⟩)
      dsimp only
      rw [if_pos hmoved, htarget]
    | full =>
      have hsome : records ≠ [] := by
        intro hnone
        rw [hnothing hnone, append_eq_nil_iff] at hmoved
        rw [hmoved.1] at hstop
        exact absurd hstop.1 (by decide)
      obtain ⟨first, rest, rfl⟩ := exists_cons_of_ne_nil hsome
      have hvalid := hmid.valid first (by simp)
      have hheader : tlsHeaderLen ≤ first.length := by
        rw [hvalid.length]
        omega
      have hlen : contentLen filled = contentLen first := by
        apply contentLen_of_prefix _ hstop.1.ge hheader
        · exact source.bytes
        · exact rest.flatten ++ raw
        · rw [hmoved, flatten_cons, append_assoc]
      refine .inr (.inr ⟨{ connection with
        recordBuf := filled, socket := source
        recordTargetLen := some first.length }, first, rest, rfl, ?_,
        hmoved, hstop.1.trans_le hheader, rfl, hstop.2.le, rfl, rfl⟩)
      dsimp only
      rw [hlen, if_neg (Nat.not_lt.2 hvalid.fits), ← hvalid.length]

/-- One record: there is nothing yet, or no record any more, or the next one is
handed over and the connection is behind it. -/
theorem Between.readTlsRecordLimited (hmid : Between connection records raw)
    (hmore : records ≠ [] ∨ raw = []) :
    (∃ next, connection.readTlsRecordLimited = (next, .error wouldBlock) ∧
      Between next records raw ∧ next.socket.blocks < connection.socket.blocks ∧
      SameText connection next) ∨
    (∃ next, connection.readTlsRecordLimited = (next, .ok []) ∧ records = [] ∧
      raw = [] ∧ next.socket = [] ∧ SameText connection next) ∨
    ∃ next first rest, records = first :: rest ∧
      connection.readTlsRecordLimited = (next, .ok first) ∧ Between next rest raw ∧
      next.socket.blocks ≤ connection.socket.blocks ∧ SameText connection next := by
  rw [TlsConnection.readTlsRecordLimited]
  rcases hmid.readTarget hmore with
    ⟨next, hread, hnext, hblocks, hsame⟩ |
    ⟨next, hread, hnone, hraw, hsocket, hbuffer, hsame⟩ |
    ⟨next, first, rest, rfl, hread, hstream, hlength, htarget, hblocks, hsame⟩
  · rw [hread]
    exact .inl ⟨next, rfl, hnext, hblocks, hsame⟩
  · rw [hread]
    exact .inr (.inl ⟨next, rfl, hnone, hraw, hsocket, hsame⟩)
  · obtain ⟨hmoved, -, hstop⟩ := fill_spec first.length next.recordBuf next.socket hlength
    rw [hread]
    dsimp only
    rw [readBody_eq_fill]
    generalize fill first.length next.recordBuf next.socket = filling at hmoved hstop
    obtain ⟨filled, source, stopped⟩ := filling
    dsimp only at hmoved hstop
    rw [hstream, flatten_cons, append_assoc] at hmoved
    cases stopped with
    | blocked =>
      refine .inl ⟨_, rfl, ⟨?_, hmid.valid, nofun, ?_, ?_⟩,
        hstop.2.trans_le hblocks, hsame.opened, hsame.plaintext⟩
      · rw [flatten_cons, append_assoc]
        exact hmoved
      · intro hnone
        exact absurd (htarget.symm.trans hnone) nofun
      · intro target hsome
        have hlast := Option.some.inj (htarget.symm.trans hsome)
        exact ⟨hlast ▸ hstop.1, first, rest, rfl, hlast⟩
    | ended =>
      obtain ⟨hless, rfl⟩ := hstop
      have hlengths := congrArg length hmoved
      rw [Source.bytes, append_nil, length_append] at hlengths
      omega
    | full =>
      obtain ⟨hfirst, hrest⟩ := append_inj hmoved hstop.1
      refine .inr (.inr ⟨{ next with
        socket := source, recordBuf := [], recordTargetLen := none }, first,
        rest, rfl, ?_, ⟨hrest, fun record hmem => ?_, fun _ => rfl,
          fun _ => (by decide : 0 < tlsHeaderLen), nofun⟩, ?_, hsame.opened,
        hsame.plaintext⟩)
      · dsimp only
        rw [hfirst]
      · exact hmid.valid record (by simp [hmem])
      · exact hstop.2.le.trans hblocks

end Read

/-- The bytes of the buffer and the socket. -/
def unopened (connection : TlsConnection) : Nat :=
  connection.recordBuf.length + connection.socket.bytes.length

theorem unopened_readTarget (connection : TlsConnection) :
    connection.readTarget.1.unopened = connection.unopened := by
  have hlengths := (length_fill tlsHeaderLen connection.recordBuf connection.socket).1
  rw [readTarget]
  split
  · rfl
  · dsimp only
    split
    · exact hlengths
    · split <;> exact hlengths
    · split <;> exact hlengths

variable {connection : TlsConnection}

theorem unopened_readTlsRecordLimited_lt {first : UInt8} {next : TlsConnection}
    (hread : connection.readTlsRecordLimited = (next, .ok (first :: rest))) :
    next.unopened < connection.unopened := by
  have htarget := unopened_readTarget connection
  rw [readTlsRecordLimited] at hread
  generalize connection.readTarget = result at hread htarget
  obtain ⟨between, target⟩ := result
  dsimp only at htarget
  rw [← htarget]
  cases target with
  | error error => simp at hread
  | ok target =>
    cases target with
    | none => simp at hread
    | some target =>
      dsimp only at hread
      rw [readBody_eq_fill] at hread
      have hlengths := (length_fill target between.recordBuf between.socket).1
      split at hread
      · simp at hread
      · simp at hread
      · obtain ⟨rfl, hrecord⟩ := Prod.mk.inj hread
        rw [Except.ok.inj hrecord] at hlengths
        rw [unopened, unopened, ← hlengths]
        simp

section Reader

variable (openRecord : Nat → List UInt8 → List UInt8)

/-- `TlsConnection::read`; `openRecord` is what the TLS library makes of the
record with a number. -/
def read (connection : TlsConnection) (room : Nat) : TlsConnection × Except IoError (List UInt8) :=
  if connection.plaintext ≠ [] then
    ({ connection with plaintext := connection.plaintext.drop room },
      .ok (connection.plaintext.take room))
  else
    match _ : connection.readTlsRecordLimited with
    | (next, .error error) => (next, .error error)
    | (next, .ok []) => (next, .ok [])
    | (next, .ok (first :: rest)) =>
      read { next with
        opened := next.opened + 1
        plaintext := openRecord next.opened (first :: rest) } room
termination_by connection.unopened
decreasing_by
  rename_i hread
  have hless := unopened_readTlsRecordLimited_lt hread
  exact hless

/-- What the TLS library makes of records with the numbers from one on. -/
def openAll : Nat → List (List UInt8) → List UInt8
  | _, [] => []
  | number, record :: records => openRecord number record ++ openAll (number + 1) records

/-- The connection has still to hand out `left`, and the socket has `raw`
behind the last record.  If the client leaves TLS, it does so behind a record
with plaintext. -/
def Owes (leaves : Bool) (connection : TlsConnection) (left raw : List UInt8) : Prop :=
  ∃ records, Between connection records raw ∧
    connection.plaintext ++ openAll openRecord connection.opened records =
      left ∧ (leaves = true → ∀ early late, early ++ late = records → late ≠ [] →
      openAll openRecord (connection.opened + early.length) late ≠ [])

variable {openRecord}

/-- Once all is handed out, the socket is at the bytes that bypass TLS. -/
theorem Owes.socket
    (howes : Owes openRecord true connection [] raw) : connection.socket.bytes = raw := by
  obtain ⟨records, hmid, htext, hcarried⟩ := howes
  rw [append_eq_nil_iff] at htext
  have hnone : records = [] := by
    by_contra hsome
    exact hcarried rfl [] records rfl hsome htext.2
  have hstream := hmid.stream
  rw [hmid.idle hnone, hnone] at hstream
  exact hstream

theorem read_record (hplain : connection.plaintext = []) (room : Nat) :
    connection.read openRecord room = match connection.readTlsRecordLimited with
      | (next, .error error) => (next, .error error)
      | (next, .ok []) => (next, .ok [])
      | (next, .ok (first :: rest)) =>
        read openRecord { next with
          opened := next.opened + 1
          plaintext := openRecord next.opened (first :: rest) } room := by
  rw [TlsConnection.read, if_neg (not_not.2 hplain)]
  split <;> simp_all

variable {leaves : Bool}

theorem Owes.opened (hmid : Between connection records raw)
    (hcarried : leaves = true → ∀ early late, early ++ late = record :: records → late ≠ [] →
      openAll openRecord (connection.opened + early.length) late ≠ []) :
    Owes openRecord leaves { connection with
        opened := connection.opened + 1
        plaintext := openRecord connection.opened record }
      (openAll openRecord connection.opened (record :: records)) raw := by
  refine ⟨records, ⟨hmid.stream, hmid.valid, hmid.idle,
    hmid.header, hmid.target⟩, rfl, ?_⟩
  rintro hleaves early late rfl hlate
  have hlast := hcarried hleaves (record :: early) late rfl hlate
  rw [length_cons, ← Nat.add_assoc, Nat.add_right_comm] at hlast
  exact hlast

theorem Owes.arrives (howes : Owes openRecord leaves connection left raw)
    {socket : Source UInt8} (hbytes : socket.bytes = connection.socket.bytes) :
    Owes openRecord leaves { connection with socket } left raw := by
  obtain ⟨records, hmid, htext, hcarried⟩ := howes
  refine ⟨records, ⟨?_, hmid.valid, hmid.idle, hmid.header,
    hmid.target⟩, htext, hcarried⟩
  dsimp only
  rw [hbytes]
  exact hmid.stream

theorem Owes.ended (howes : Owes openRecord leaves connection left raw)
    (hsocket : connection.socket = []) (hplain : connection.plaintext = []) : left = [] := by
  obtain ⟨records, hmid, htext, -⟩ := howes
  have hstream := hmid.stream
  rw [hsocket, Source.bytes, append_nil] at hstream
  cases records with
  | nil =>
    rw [← htext, hplain]
    rfl
  | cons record records =>
    have hlength := (hmid.valid record (by simp)).length
    have hlonger : record.length ≤ connection.recordBuf.length := by
      rw [hstream, flatten_cons, append_assoc, length_append]
      omega
    cases htarget : connection.recordTargetLen with
    | none =>
      have hheader := hmid.header htarget
      omega
    | some target =>
      obtain ⟨hless, first, rest, hrecords, rfl⟩ := hmid.target _ htarget
      cases hrecords
      omega

/-- A read returns the next bytes, or there is nothing yet, or it is the end. -/
theorem Owes.read {room : Nat} (howes : Owes openRecord leaves connection left raw)
    (hmore : left ≠ [] ∨ raw = []) (hroom : 0 < room) :
    (∃ next, connection.read openRecord room = (next, .error wouldBlock) ∧
      next.plaintext = [] ∧ Owes openRecord leaves next left raw) ∨
    (∃ next, connection.read openRecord room = (next, .ok []) ∧ left = [] ∧ next.socket = []) ∨
    ∃ next piece rest, connection.read openRecord room = (next, .ok piece) ∧
      piece ≠ [] ∧ piece.length ≤ room ∧ piece ++ rest = left ∧
      Owes openRecord leaves next rest raw := by
  induction hsize : connection.unopened using Nat.strong_induction_on generalizing connection with
  | _ size ih =>
    obtain ⟨records, hmid, htext, hcarried⟩ := howes
    by_cases hplain : connection.plaintext = []
    · have hrecords : records ≠ [] ∨ raw = [] := by
        rcases hmore with hleft | hraw
        · left
          rintro rfl
          rw [hplain] at htext
          exact hleft htext.symm
        · exact .inr hraw
      rw [hplain, nil_append] at htext
      rw [read_record hplain]
      rcases hmid.readTlsRecordLimited hrecords with
        ⟨next, hread, hnext, -, hsame⟩ |
        ⟨next, hread, rfl, hraw, hsocket, hsame⟩ |
        ⟨next, record, rest, rfl, hread, hnext, -, hsame⟩
      · rw [hread]
        refine .inl ⟨next, rfl, hsame.plaintext.trans hplain, records, hnext, ?_, ?_⟩
        · rw [hsame.opened, hsame.plaintext, hplain]
          exact htext
        · rw [hsame.opened]
          exact hcarried
      · rw [hread]
        exact .inr (.inl ⟨next, rfl, htext.symm, hsocket⟩)
      · have hlength := (hmid.valid record (by simp)).length
        obtain ⟨first, tail, rfl⟩ : ∃ first tail, record = first :: tail := by
          apply exists_cons_of_ne_nil
          rintro rfl
          simp [tlsHeaderLen] at hlength
          omega
        have hless := unopened_readTlsRecordLimited_lt hread
        rw [hread]
        rw [hsize] at hless
        rw [← hsame.opened] at htext hcarried
        exact ih next.unopened hless (htext ▸ Owes.opened hnext hcarried) rfl
    · refine .inr (.inr ⟨{ connection with
          plaintext := connection.plaintext.drop room },
        connection.plaintext.take room, connection.plaintext.drop room ++
          openAll openRecord connection.opened records, ?_, ?_, ?_, ?_, ?_⟩)
      · rw [TlsConnection.read, if_pos hplain]
      · rw [Ne, take_eq_nil_iff]
        rintro (hzero | hnone)
        · omega
        · exact hplain hnone
      · exact length_take_le _ _
      · rw [← append_assoc, take_append_drop, htext]
      · exact ⟨records, ⟨hmid.stream, hmid.valid, hmid.idle,
          hmid.header, hmid.target⟩, rfl, hcarried⟩

end Reader

end TlsConnection

end KeliCore
