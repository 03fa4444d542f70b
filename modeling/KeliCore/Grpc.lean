/-
The message reader of the gRPC transport.  `decode_hunk_message` walks over
the fields of a protobuf message with a cursor; the release profile wraps on
overflow, so the end of a field is computed modulo 2^64.
-/
import KeliCore.Bytes
import KeliCore.Loop

namespace KeliCore

open Loop Relation

/-- The error of `decode_varint`. -/
def invalidHunkVarint : IoError :=
  ⟨.invalidData, "invalid grpc hunk varint"⟩

/-- The loop of `decode_varint` over the bytes at the cursor.  Only bytes of
the slice move the cursor, so it cannot overflow. -/
def decodeVarintLoop : List UInt8 → Nat → Nat → UInt64 → Except IoError (UInt64 × Nat)
  | [], _, _, _ => .error invalidHunkVarint
  | byte :: rest, cursor, shift, value =>
    if shift < 64 then
      let value := value ||| ((byte &&& 0x7f).toUInt64 <<< UInt64.ofNat shift)
      if byte &&& 0x80 = 0 then .ok (value, cursor + 1)
      else decodeVarintLoop rest (cursor + 1) (shift + 7) value
    else .error invalidHunkVarint

def decodeVarint (input : Slice) (cursor : Nat) : Except IoError (UInt64 × Nat) :=
  decodeVarintLoop (input.bytes.drop cursor) cursor 0 0

/-- The locals of `decode_hunk_message`. -/
structure HunkState where
  cursor : Nat
  data : Option (List UInt8)

/-- How a call of `decode_hunk_message` ends.  A slice that is out of range
panics, and the release profile aborts the process on a panic. -/
inductive HunkEnd where
  | returned (result : Except IoError (List UInt8))
  | aborted

/-- `cursor + len` under wrapping `usize` arithmetic. -/
def fieldEnd (cursor : Nat) (len : UInt64) : Nat :=
  (cursor + len.toNat) % 2 ^ 64

def decodeHunkField (message : Slice) (data : Option (List UInt8))
    (key : UInt64) (cursor : Nat) : Turn HunkState HunkEnd :=
  if key >>> 3 = 1 ∧ key &&& 7 = 2 then
    match decodeVarint message cursor with
    | .error error => .stop (.returned (.error error))
    | .ok (len, cursor) =>
      if message.bytes.length < fieldEnd cursor len then
        .stop (.returned (.error ⟨.unexpectedEof, "truncated grpc hunk data"⟩))
      else if fieldEnd cursor len < cursor then
        -- `message[cursor..cursor + len]` starts behind its end
        .stop .aborted
      else
        .again
          { cursor := fieldEnd cursor len
            data := some ((message.bytes.drop cursor).take
              (fieldEnd cursor len - cursor)) }
  else if key &&& 7 = 0 then
    match decodeVarint message cursor with
    | .error error => .stop (.returned (.error error))
    | .ok (_, cursor) => .again { cursor, data }
  else if key &&& 7 = 2 then
    match decodeVarint message cursor with
    | .error error => .stop (.returned (.error error))
    | .ok (len, cursor) =>
      if message.bytes.length < fieldEnd cursor len then
        .stop (.returned (.error ⟨.unexpectedEof, "truncated grpc hunk field"⟩))
      else .again { cursor := fieldEnd cursor len, data }
  else .stop (.returned (.error ⟨.invalidData, "unsupported grpc hunk wire type"⟩))

def decodeHunkTurn (message : Slice) (state : HunkState) : Turn HunkState HunkEnd :=
  if state.cursor < message.bytes.length then
    match decodeVarint message state.cursor with
    | .error error => .stop (.returned (.error error))
    | .ok (key, cursor) => decodeHunkField message state.data key cursor
  else .stop (.returned (.ok (state.data.getD [])))

def decodeHunkMessage (message : Slice) (fuel : Nat) : Option HunkEnd :=
  Loop.run (decodeHunkTurn message) fuel { cursor := 0, data := none }

/-- A field with this key starts at `start`; its key ends at `behind`. -/
def KeyAt (message : Slice) (start : Nat) (key : UInt64) (behind : Nat) :
    Prop :=
  start < message.bytes.length ∧ decodeVarint message start = .ok (key, behind)

/-- The data field: field 1 with a length. -/
def IsData (key : UInt64) : Prop := key >>> 3 = 1 ∧ key &&& 7 = 2

/-- A field at `start` is skipped and the next one is looked for at
`next`. -/
inductive SkipsTo (message : Slice) : Nat → Nat → Prop where
  | value {start behind next : Nat} {key value : UInt64}
      (hkey : KeyAt message start key behind) (hwire : key &&& 7 = 0)
      (hvalue : decodeVarint message behind = .ok (value, next)) : SkipsTo message start next
  | bytes {start behind inside : Nat} {key len : UInt64}
      (hkey : KeyAt message start key behind) (hwire : key &&& 7 = 2)
      (hlen : decodeVarint message behind = .ok (len, inside))
      (hend : fieldEnd inside len ≤ message.bytes.length)
      (hdata : key >>> 3 = 1 → inside ≤ fieldEnd inside len) :
      SkipsTo message start (fieldEnd inside len)

/-- A data field at `start` whose end passes 2^64. -/
def RunsOver (message : Slice) (start : Nat) : Prop :=
  ∃ key behind len inside, KeyAt message start key behind ∧ IsData key ∧
    decodeVarint message behind = .ok (len, inside) ∧ 2 ^ 64 ≤ inside + len.toNat

/-- From field to field, the cursor comes to no data field that runs over
and to no place it can come back to. -/
def WalksToTheEnd (message : Slice) : Prop :=
  ∀ start, ReflTransGen (SkipsTo message) 0 start →
    ¬ RunsOver message start ∧ ¬ TransGen (SkipsTo message) start start

variable {cursor next : Nat} {value : UInt64} {message : Slice} {state : HunkState}

theorem decodeVarintLoop_cursor {rest : List UInt8} {shift : Nat} {result : UInt64}
    (hread : decodeVarintLoop rest cursor shift value = .ok (result, next)) :
    cursor < next ∧ next ≤ cursor + rest.length := by
  induction rest generalizing cursor shift value with
  | nil => simp [decodeVarintLoop] at hread
  | cons byte rest ih =>
    simp only [decodeVarintLoop] at hread
    split at hread
    · split at hread
      · simp only [Except.ok.injEq, Prod.mk.injEq] at hread
        rw [List.length_cons]
        omega
      · have hrest := ih hread
        rw [List.length_cons]
        omega
    · simp at hread

/-- A varint takes at least one byte, and only bytes of the slice. -/
theorem decodeVarint_cursor (hread : decodeVarint message cursor = .ok (value, next)) :
    cursor < next ∧ next ≤ message.bytes.length := by
  have hcursor := decodeVarintLoop_cursor hread
  rw [List.length_drop] at hcursor
  omega

/-- The end of a field is computed behind its start unless it wraps, and
before it if it does. -/
theorem fieldEnd_lt_iff {message : Slice} {inside : Nat} {len : UInt64}
    (hinside : inside ≤ message.bytes.length) :
    fieldEnd inside len < inside ↔ 2 ^ 64 ≤ inside + len.toNat := by
  have hlen := len.toNat_lt
  have hfits := message.fits
  rw [fieldEnd]
  omega

theorem decodeHunkTurn_of_key {key : UInt64} {behind : Nat}
    (hkey : KeyAt message state.cursor key behind) :
    decodeHunkTurn message state = decodeHunkField message state.data key behind := by
  simp [decodeHunkTurn, hkey.1, hkey.2]

theorem movesBy_skipsTo (message : Slice) :
    MovesBy (decodeHunkTurn message) HunkState.cursor (SkipsTo message) where
  of_again := by
    intro state next hagain
    rw [decodeHunkTurn] at hagain
    split at hagain
    next hcursor =>
      split at hagain
      · simp at hagain
      next key behind hread =>
        have hkey : KeyAt message state.cursor key behind := ⟨hcursor, hread⟩
        unfold decodeHunkField at hagain
        -- the arms of the match, in the order of the source
        split_ifs at hagain with hdata hvalue hskip
        · split at hagain
          · simp at hagain
          next len inside hlen =>
            split_ifs at hagain with hend hback
            cases hagain
            exact .bytes hkey hdata.2 hlen (Nat.le_of_not_lt hend) fun _ => Nat.le_of_not_lt hback
        · split at hagain
          · simp at hagain
          next value inside hread =>
            cases hagain
            exact .value hkey hvalue hread
        · split at hagain
          · simp at hagain
          next len inside hlen =>
            split_ifs at hagain with hend
            cases hagain
            exact .bytes hkey hskip hlen (Nat.le_of_not_lt hend)
              fun hfield => absurd ⟨hfield, hskip⟩ hdata
    · simp at hagain
  again_of := by
    intro state target hmove
    cases hmove with
    | value hkey hwire hvalue =>
      refine ⟨{ cursor := target, data := state.data }, ?_, rfl⟩
      rw [decodeHunkTurn_of_key hkey]
      simp [decodeHunkField, hwire, hvalue]
    | @bytes behind inside key len hkey hwire hlen hend hdata =>
      rw [decodeHunkTurn_of_key hkey]
      by_cases hfield : key >>> 3 = 1
      · have hback := Nat.not_lt.2 (hdata hfield)
        simp [decodeHunkField, hfield, hwire, hlen, Nat.not_lt.2 hend, hback]
      · simp [decodeHunkField, hfield, hwire, hlen, Nat.not_lt.2 hend]

/-- The process aborts where a data field runs over, and nowhere else. -/
theorem decodeHunkTurn_aborted_iff :
    decodeHunkTurn message state = .stop .aborted ↔ RunsOver message state.cursor := by
  constructor
  · intro hstop
    rw [decodeHunkTurn] at hstop
    split at hstop
    next hcursor =>
      split at hstop
      · simp at hstop
      next key behind hread =>
        unfold decodeHunkField at hstop
        split_ifs at hstop with hdata hvalue hskip
        · split at hstop
          · simp at hstop
          next len inside hlen =>
            split_ifs at hstop with hend hback
            · simp at hstop
            · have hinside := (decodeVarint_cursor hlen).2
              exact ⟨key, behind, len, inside, ⟨hcursor, hread⟩, hdata, hlen,
                (fieldEnd_lt_iff hinside).1 hback⟩
        · split at hstop <;> simp at hstop
        · split at hstop
          · simp at hstop
          · split_ifs at hstop
            simp at hstop
        · simp at hstop
    · simp at hstop
  · rintro ⟨key, behind, len, inside, hkey, hdata, hlen, hover⟩
    have hinside := (decodeVarint_cursor hlen).2
    have hback := (fieldEnd_lt_iff hinside).2 hover
    have hend : fieldEnd inside len ≤ message.bytes.length := by omega
    rw [decodeHunkTurn_of_key hkey]
    simp [decodeHunkField, hdata.1, hdata.2, hlen, Nat.not_lt.2 hend, hback]

theorem SkipsTo.start_lt {start : Nat}
    (hskip : SkipsTo message start next) : start < message.bytes.length := by
  cases hskip with
  | value hkey | bytes hkey => exact hkey.1

/-- The call returns `Ok` or `Err`. -/
def HunkReturns (message : Slice) : Prop :=
  ∃ fuel result, decodeHunkMessage message fuel = some (.returned result)

theorem hunkReturns_iff : HunkReturns message ↔
      ∃ result, Returns (decodeHunkTurn message) ⟨0, none⟩ (.returned result) :=
  ⟨fun ⟨fuel, result, hrun⟩ => ⟨result, fuel, hrun⟩,
    fun ⟨result, fuel, hrun⟩ => ⟨fuel, result, hrun⟩⟩

/-- A call comes back exactly for the messages whose fields lead the cursor
to the end. -/
theorem decodeHunkMessage_returns_iff (message : Slice) :
    HunkReturns message ↔ WalksToTheEnd message := by
  have hmoves := movesBy_skipsTo message
  rw [hunkReturns_iff]
  constructor
  · rintro ⟨result, hres⟩ start hpath
    have hway : ReflTransGen (SkipsTo message) (HunkState.mk 0 none).cursor start := hpath
    refine ⟨fun hover => ?_, fun hcycle => hmoves.not_returns_of_cycle hway hcycle _ hres⟩
    obtain ⟨last, rfl, hsame⟩ := hmoves.follow hway
    have habort := returns_of_stop (decodeHunkTurn_aborted_iff.2 hover)
    exact absurd (((hsame _).1 hres).unique habort) (by simp)
  · intro hwalk
    obtain ⟨result, hres⟩ := hmoves.exists_returns (fun hskip => hskip.start_lt)
      (fun (start : Nat) (hpath : ReflTransGen (SkipsTo message)
        (HunkState.mk 0 none).cursor start) => (hwalk start hpath).2)
    cases result with
    | returned result => exact ⟨result, hres⟩
    | aborted =>
      obtain ⟨last, hpath, hstop⟩ := hmoves.stops_at hres
      exact absurd (decodeHunkTurn_aborted_iff.1 hstop) (hwalk last.cursor hpath).1

/-- A data field of length 2^64 - 1: its end wraps to the byte before its
start. -/
def Sample.overrunningData : Slice where
  bytes := [0x0a, 0xff, 0xff, 0xff, 0xff, 0xff, 0xff, 0xff, 0xff, 0xff, 0x01]
  fits := by decide

/-- Field 2 with length 2^64 - 11: skipping it leads back to its key. -/
def Sample.loopingField : Slice where
  bytes := [0x12, 0xf5, 0xff, 0xff, 0xff, 0xff, 0xff, 0xff, 0xff, 0xff, 0x01]
  fits := by decide

theorem decodeHunkMessage_aborts_and_loops : ¬ HunkReturns Sample.overrunningData ∧
      ¬ HunkReturns Sample.loopingField := by
  rw [hunkReturns_iff, hunkReturns_iff]
  constructor
  · rintro ⟨result, hres⟩
    have habort : decodeHunkTurn Sample.overrunningData ⟨0, none⟩ = .stop .aborted := by rfl
    exact absurd ((returns_stop habort).1 hres) (by simp)
  · rintro ⟨result, fuel, hfuel⟩
    have hagain : decodeHunkTurn Sample.loopingField ⟨0, none⟩ = .again ⟨0, none⟩ := by rfl
    induction fuel with
    | zero => simp [Loop.run] at hfuel
    | succ fuel ih => exact ih (by simpa [Loop.run, hagain] using hfuel)

end KeliCore
