/-
The flow in the addon of a VLESS request.  `parse_addon_flow` walks over the
fields of a protobuf message; the release profile wraps on overflow, so a
length near 2^64 sends the walk back, or the slice of the flow behind its end.
-/
import KeliCore.Grpc
import KeliCore.HexDecoders
import KeliCore.Protobuf

namespace KeliCore

open Sample

open Loop Protobuf Relation List Option Nat

variable {next : Nat}

/-- The error of `read_varint`. -/
def truncatedAddonVarint : IoError :=
  ⟨.invalidData, "vless addon varint is truncated"⟩

def readVarintLoop : List UInt8 → Nat → Nat → UInt64 → Except IoError (UInt64 × Nat)
  | [], _, _, _ => .error truncatedAddonVarint
  | byte :: rest, index, shift, value =>
    let value := value ||| ((byte &&& 0x7f).toUInt64 <<< UInt64.ofNat shift)
    if byte &&& 0x80 = 0 then .ok (value, index + 1)
    else if 64 ≤ shift + 7 then .error truncatedAddonVarint
    else readVarintLoop rest (index + 1) (shift + 7) value

def readVarint (input : Slice) (index : Nat) : Except IoError (UInt64 × Nat) :=
  readVarintLoop (input.bytes.drop index) index 0 0

/-- The locals of `parse_addon_flow`. -/
structure AddonState where
  index : Nat
  flow : String

/-- How a call of `parse_addon_flow` ends. -/
inductive AddonEnd where
  | returned (result : Except IoError String)
  | aborted

/-- The match on `(field, wire_type)` in `parse_addon_flow`, with the index
behind the key. -/
def parseAddonField (addon : Slice) (flow : String) (key : UInt64)
    (index : Nat) : Turn AddonState AddonEnd :=
  if key >>> 3 = 1 ∧ key &&& 0x07 = 2 then
    match readVarint addon index with
    | .error error => .stop (.returned (.error error))
    | .ok (len, index) =>
      if addon.bytes.length < fieldEnd index len then
        .stop (.returned (.error ⟨.invalidData, "vless addon flow is truncated"⟩))
      else if fieldEnd index len < index then
        -- `addon[index..index + len]` starts behind its end
        .stop .aborted
      else
        match String.fromUTF8? ((addon.bytes.drop index).take
            (fieldEnd index len - index)).toByteArray with
        | none => .stop (.returned (.error ⟨.invalidData, "vless addon flow is invalid utf-8"⟩))
        | some flow => .again { index := fieldEnd index len, flow }
  else if key &&& 0x07 = 0 then
    match readVarint addon index with
    | .error error => .stop (.returned (.error error))
    | .ok (_, index) => .again { index, flow }
  else if key &&& 0x07 = 2 then
    match readVarint addon index with
    | .error error => .stop (.returned (.error error))
    | .ok (len, index) =>
      if addon.bytes.length < fieldEnd index len then
        .stop (.returned (.error ⟨.invalidData, "vless addon field is truncated"⟩))
      else .again { index := fieldEnd index len, flow }
  else .stop (.returned (.error ⟨.invalidData,
    s!"unsupported vless addon wire type {(key &&& 0x07).toNat}"⟩))

def parseAddonTurn (addon : Slice) (state : AddonState) : Turn AddonState AddonEnd :=
  if state.index < addon.bytes.length then
    match readVarint addon state.index with
    | .error error => .stop (.returned (.error error))
    | .ok (key, index) => parseAddonField addon state.flow key index
  else .stop (.returned (.ok state.flow))

/-- `parse_addon_flow` for at most `fuel` turns of its loop; the last check of
the loop's condition is a turn of its own. -/
def parseAddonFlow (addon : Slice) (fuel : Nat) : Option AddonEnd :=
  Loop.run (parseAddonTurn addon) fuel { index := 0, flow := "" }

/-- The call returns after at most as many iterations as there are bytes, and a
flow that it returns is the last one of a well-formed message. -/
def ParsesFlow (addon : Slice) : Prop :=
  (∃ error, parseAddonFlow addon addon.bytes.length = some (.returned (.error error))) ∨
    ∃ flow records, parseAddonFlow addon (addon.bytes.length + 1) = some (.returned (.ok flow)) ∧
      Message addon.bytes records ∧ Text.bytes flow = (lastBytes 1 records).getD []

theorem and_continuation_iff (byte : UInt8) : byte &&& 0x80 = 0 ↔ byte.toNat < 128 := by
  have hall : ∀ code < 256, (UInt8.ofNat code &&& 0x80 = 0 ↔ code < 128) := by decide +kernel
  have hbyte := hall byte.toNat byte.toNat_lt
  rwa [UInt8.ofNat_toNat] at hbyte

theorem readVarintLoop_iff {rest : List UInt8} {index count next : Nat}
    {value result : UInt64} (hcount : count ≤ 9) (hvalue : value.toNat < 2 ^ (7 * count)) :
    readVarintLoop rest index (7 * count) value = .ok (result, next) ↔
      ∃ octets tail, rest = octets ++ tail ∧ Delimited octets ∧
        octets.length + count ≤ 10 ∧ next = index + octets.length ∧
        result.toNat = (value.toNat + 2 ^ (7 * count) * groups octets) % 2 ^ 64 := by
  induction rest generalizing index count value with
  | nil =>
    simp only [readVarintLoop, reduceCtorEq, false_iff]
    rintro ⟨octets, tail, hrest, hoctets, -⟩
    exact hoctets.ne_nil (append_eq_nil_iff.1 hrest.symm).1
  | cons byte rest ih =>
    have hgroup := toNat_or_group hvalue (by omega) byte
    -- the varint's first byte is this one
    have hsplit : ∀ octets tail, byte :: rest = octets ++ tail →
        Delimited octets → ∃ more, octets = byte :: more ∧
          rest = more ++ tail ∧ ((byte.toNat < 128 ∧ more = []) ∨
            (128 ≤ byte.toNat ∧ Delimited more)) := by
      intro octets tail hrest hoctets
      cases octets with
      | nil => exact absurd rfl hoctets.ne_nil
      | cons octet more =>
        cases hrest
        exact ⟨more, rfl, rfl, delimited_cons.1 hoctets⟩
    rw [readVarintLoop]
    by_cases hlast : byte.toNat < 128
    · rw [if_pos ((and_continuation_iff byte).2 hlast)]
      simp only [Except.ok.injEq, Prod.mk.injEq]
      constructor
      · rintro ⟨rfl, rfl⟩
        refine ⟨[byte], rest, rfl, hlast, ?_, rfl, ?_⟩
        · rw [length_singleton]
          omega
        · rw [hgroup]
          simp only [groups, mul_zero, add_zero]
      · rintro ⟨octets, tail, hrest, hoctets, -, rfl, hres⟩
        obtain ⟨more, rfl, -, ⟨-, rfl⟩ | ⟨hmore, -⟩⟩ := hsplit octets tail hrest hoctets
        · refine ⟨?_, rfl⟩
          apply UInt64.toNat_inj.1
          rw [hgroup, hres]
          simp only [groups, mul_zero, add_zero]
        · omega
    · rw [if_neg (mt (and_continuation_iff byte).1 hlast)]
      have hpower : 2 ^ (7 * (count + 1)) = 2 ^ (7 * count) * 128 := by
        rw [Nat.mul_succ, pow_add]
        norm_num
      by_cases hfull : 64 ≤ 7 * count + 7
      · rw [if_pos hfull]
        simp only [reduceCtorEq, false_iff]
        rintro ⟨octets, tail, hrest, hoctets, hlength, -⟩
        obtain ⟨more, rfl, -, ⟨hmore, -⟩ | ⟨-, hmore⟩⟩ := hsplit octets tail hrest hoctets
        · omega
        · have hpos := length_pos_of_ne_nil hmore.ne_nil
          rw [length_cons] at hlength
          omega
      · have hsum : value.toNat + 2 ^ (7 * count) * (byte.toNat % 128) < 2 ^ (7 * (count + 1)) := by
          rw [hpower]
          have hle : 2 ^ (7 * count) * (byte.toNat % 128) ≤ 2 ^ (7 * count) * 127 :=
            mul_le_mul_left _ (by omega)
          omega
        have hbound : 2 ^ (7 * (count + 1)) < 2 ^ 64 := Nat.pow_lt_pow_right (by decide) (by omega)
        rw [Nat.mod_eq_of_lt (hsum.trans hbound)] at hgroup
        rw [if_neg hfull, ← Nat.mul_succ, ih (by omega) (hgroup ▸ hsum), hgroup]
        constructor
        · rintro ⟨octets, tail, rfl, hoctets, hlength, rfl, hres⟩
          refine ⟨byte :: octets, tail, rfl,
            delimited_cons.2 (.inr ⟨by omega, hoctets⟩), ?_, ?_, ?_⟩
          · rw [length_cons]
            omega
          · rw [length_cons]
            omega
          · rw [hres, hpower, groups]
            congr 1
            ring
        · rintro ⟨octets, tail, hrest, hoctets, hlength, rfl, hres⟩
          obtain ⟨more, rfl, rfl, ⟨hmore, -⟩ | ⟨-, hmore⟩⟩ := hsplit octets tail hrest hoctets
          · omega
          · rw [length_cons] at hlength ⊢
            refine ⟨more, tail, rfl, hmore, by omega, by omega, ?_⟩
            rw [hres, hpower, groups]
            congr 1
            ring

variable {addon : Slice} {index : Nat} {value : UInt64} {state : AddonState}
  {octets rest : List UInt8}

theorem readVarint_iff : readVarint addon index = .ok (value, next) ↔
      ∃ octets, addon.bytes.drop index = octets ++ addon.bytes.drop next ∧
        next = index + octets.length ∧ Varint octets value.toNat := by
  have hloop := @readVarintLoop_iff (addon.bytes.drop index) index 0 next 0
    value (by decide) (by decide)
  rw [readVarint, hloop]
  constructor
  · rintro ⟨octets, tail, hrest, hoctets, hlength, rfl, hres⟩
    refine ⟨octets, ?_, rfl, hoctets, hlength, ?_⟩
    · rw [← drop_drop, hrest, drop_left]
    · rw [hres]
      simp
  · rintro ⟨octets, hrest, rfl, hoctets, hlength, hvalue⟩
    refine ⟨octets, _, hrest, hoctets, hlength, rfl, ?_⟩
    rw [hvalue]
    simp

/-- A field of the addon: where its payload starts, how long it is, and the
text that it has as a flow. -/
structure AddonField where
  number : Nat
  start : Nat
  len : UInt64
  text : Option String

namespace AddonField

/-- A flow whose end passes 2^64. -/
def RunsOver (field : AddonField) : Prop :=
  field.number = 1 ∧ 2 ^ 64 ≤ field.start + field.len.toNat

/-- A field that a message can have, whose end does not pass 2^64. -/
def Sound (field : AddonField) : Prop :=
  Legal field.number ∧ field.start + field.len.toNat < 2 ^ 64

end AddonField

/-- The field that can be read at the index: a varint, or bytes that end, in
wrapping arithmetic, inside the addon, and are text if they are the flow. -/
def fieldAt (addon : Slice) (index : Nat) : Option AddonField :=
  match readVarint addon index with
  | .error _ => none
  | .ok (key, behind) =>
    match readVarint addon behind with
    | .error _ => none
    | .ok (value, start) =>
      if key &&& 0x07 = 0 then
        some ⟨(key >>> 3).toNat, start, 0, none⟩
      else if key &&& 0x07 = 2 ∧ fieldEnd start value ≤ addon.bytes.length then
        if key >>> 3 = 1 ∧ start + value.toNat < 2 ^ 64 then
          (String.fromUTF8? ((addon.bytes.drop start).take value.toNat).toByteArray).map fun flow =>
              ⟨1, start, value, some flow⟩
        else some ⟨(key >>> 3).toNat, start, value, none⟩
      else none

/-- From a field to the one that is looked for behind it. -/
def NextField (addon : Slice) (index next : Nat) : Prop :=
  ∃ field, fieldAt addon index = some field ∧ ¬ field.RunsOver ∧
    fieldEnd field.start field.len = next

/-- The fields from the front on: none is a flow that runs over, and one of
them cannot be read or all are sound. -/
def WalksSoundly (addon : Slice) : Prop :=
  (∀ index, ReflTransGen (NextField addon) 0 index →
      ∀ field, fieldAt addon index = some field → ¬ field.RunsOver) ∧
    ((∃ index, ReflTransGen (NextField addon) 0 index ∧
        index < addon.bytes.length ∧ fieldAt addon index = none) ∨
      ∀ index, ReflTransGen (NextField addon) 0 index →
        ∀ field, fieldAt addon index = some field → field.Sound)

theorem readVarint_index (hread : readVarint addon index = .ok (value, next)) :
    index < next ∧ next ≤ addon.bytes.length := by
  obtain ⟨octets, hdrop, rfl, hvarint⟩ := readVarint_iff.1 hread
  have hpos := length_pos_of_ne_nil hvarint.delimited.ne_nil
  have hlength := congrArg length hdrop
  simp only [length_append, length_drop] at hlength
  omega

theorem parseAddonTurn_end (hend : addon.bytes.length ≤ state.index) :
    parseAddonTurn addon state = .stop (.returned (.ok state.flow)) := by
  rw [parseAddonTurn, if_neg (not_lt.2 hend)]

theorem parseAddonTurn_cases (hindex : state.index < addon.bytes.length) :
    (fieldAt addon state.index = none ∧
        ∃ error, parseAddonTurn addon state = .stop (.returned (.error error))) ∨
      (∃ field, fieldAt addon state.index = some field ∧ field.RunsOver ∧
        parseAddonTurn addon state = .stop .aborted) ∨
      ∃ field, fieldAt addon state.index = some field ∧ ¬ field.RunsOver ∧
        parseAddonTurn addon state = .again
          ⟨fieldEnd field.start field.len, field.text.getD state.flow⟩ := by
  rw [parseAddonTurn, if_pos hindex, fieldAt]
  cases hkey : readVarint addon state.index with
  | error error => exact .inl ⟨rfl, error, rfl⟩
  | ok parts =>
    obtain ⟨key, behind⟩ := parts
    dsimp only
    rw [parseAddonField]
    cases hvalue : readVarint addon behind with
    | error error =>
      refine .inl ⟨rfl, ?_⟩
      split_ifs
      · exact ⟨error, rfl⟩
      · exact ⟨error, rfl⟩
      · exact ⟨error, rfl⟩
      · exact ⟨_, rfl⟩
    | ok parts =>
      obtain ⟨value, start⟩ := parts
      dsimp only
      have hstart := (readVarint_index hvalue).2
      have hback := @fieldEnd_lt_iff addon start value hstart
      by_cases hvarint : key &&& 0x07 = 0
      · have hflow : ¬ (key >>> 3 = 1 ∧ key &&& 0x07 = 2) := by
          rintro ⟨-, hbytes⟩
          rw [hvarint] at hbytes
          contradiction
        rw [if_neg hflow, if_pos hvarint, if_pos hvarint]
        refine .inr (.inr ⟨_, rfl, ?_, ?_⟩)
        · rintro ⟨-, hover⟩
          have hfits := addon.fits
          simp at hover
          omega
        · have hfits := addon.fits
          rw [fieldEnd]
          simp
          omega
      · rw [if_neg hvarint, if_neg hvarint]
        by_cases hbytes : key &&& 0x07 = 2
        · simp only [hbytes, and_true, true_and, if_true]
          by_cases hend : addon.bytes.length < fieldEnd start value
          · rw [if_neg (not_le.2 hend)]
            refine .inl ⟨rfl, ?_⟩
            split_ifs
            · exact ⟨_, rfl⟩
            · exact ⟨_, rfl⟩
          rw [if_pos (Nat.le_of_not_lt hend)]
          by_cases hflow : key >>> 3 = 1
          · by_cases hover : 2 ^ 64 ≤ start + value.toNat
            · rw [if_neg fun hfit => not_lt.2 hover hfit.2]
              refine .inr (.inl ⟨_, rfl, ⟨?_, hover⟩, ?_⟩)
              · rw [hflow]
                rfl
              · rw [if_pos hflow, if_neg hend, if_pos (hback.2 hover)]
            · have hfit := Nat.lt_of_not_le hover
              have hlength : fieldEnd start value - start = value.toNat := by
                rw [fieldEnd, Nat.mod_eq_of_lt hfit]
                omega
              rw [if_pos ⟨hflow, hfit⟩, if_pos hflow, if_neg hend,
                if_neg (mt hback.1 hover), hlength]
              cases hutf8 : String.fromUTF8? ((addon.bytes.drop start).take
                  value.toNat).toByteArray with
              | none => exact .inl ⟨rfl, _, rfl⟩
              | some flow => exact .inr (.inr ⟨_, rfl, fun hruns => hover hruns.2, rfl⟩)
          · rw [if_neg fun hboth => hflow hboth.1, if_neg hflow, if_neg hend]
            refine .inr (.inr ⟨_, rfl, fun hruns => hflow ?_, rfl⟩)
            exact UInt64.toNat_inj.1 hruns.1
        · rw [if_neg fun hboth => hbytes hboth.1, if_neg hbytes, if_neg fun hflow => hbytes hflow.2]
          exact .inl ⟨rfl, _, rfl⟩

variable {field : AddonField}

theorem lt_of_fieldAt (hfield : fieldAt addon index = some field) : index < addon.bytes.length := by
  rw [fieldAt] at hfield
  cases hkey : readVarint addon index with
  | error error =>
    rw [hkey] at hfield
    contradiction
  | ok parts =>
    have hindex := readVarint_index hkey
    omega

theorem parseAddonTurn_aborted_iff : parseAddonTurn addon state = .stop .aborted ↔
      ∃ field, fieldAt addon state.index = some field ∧ field.RunsOver := by
  by_cases hindex : state.index < addon.bytes.length
  · rcases parseAddonTurn_cases hindex with ⟨hnone, error, hturn⟩ |
      ⟨field, hfield, hruns, hturn⟩ | ⟨field, hfield, hruns, hturn⟩
    · simp [hturn, hnone]
    · simp [hturn, hfield, hruns]
    · simp [hturn, hfield, hruns]
  · rw [parseAddonTurn_end (Nat.le_of_not_lt hindex)]
    refine iff_of_false (by simp) ?_
    rintro ⟨field, hfield, -⟩
    exact hindex (lt_of_fieldAt hfield)

theorem parseAddonTurn_error_iff :
    (∃ error, parseAddonTurn addon state = .stop (.returned (.error error))) ↔
      state.index < addon.bytes.length ∧ fieldAt addon state.index = none := by
  by_cases hindex : state.index < addon.bytes.length
  · rcases parseAddonTurn_cases hindex with ⟨hnone, error, hturn⟩ |
      ⟨field, hfield, hruns, hturn⟩ | ⟨field, hfield, hruns, hturn⟩
    · simp [hturn, hnone, hindex]
    · simp [hturn, hfield]
    · simp [hturn, hfield]
  · rw [parseAddonTurn_end (Nat.le_of_not_lt hindex)]
    simp [hindex]

theorem movesBy_nextField (addon : Slice) :
    MovesBy (parseAddonTurn addon) AddonState.index (NextField addon) where
  of_again := by
    intro state next hagain
    by_cases hindex : state.index < addon.bytes.length
    · rcases parseAddonTurn_cases hindex with ⟨-, error, hturn⟩ |
        ⟨field, -, -, hturn⟩ | ⟨field, hfield, hruns, hturn⟩
      · rw [hturn] at hagain
        contradiction
      · rw [hturn] at hagain
        contradiction
      · rw [hturn] at hagain
        obtain rfl := Turn.again.inj hagain
        exact ⟨field, hfield, hruns, rfl⟩
    · rw [parseAddonTurn_end (Nat.le_of_not_lt hindex)] at hagain
      contradiction
  again_of := by
    rintro state target ⟨field, hfield, hruns, rfl⟩
    rcases parseAddonTurn_cases (lt_of_fieldAt hfield) with ⟨hnone, -⟩ |
      ⟨other, hother, hover, -⟩ | ⟨other, hother, -, hturn⟩
    · rw [hfield] at hnone
      contradiction
    · rw [hfield] at hother
      cases hother
      exact absurd hover hruns
    · rw [hfield] at hother
      cases hother
      exact ⟨_, hturn, rfl⟩

theorem toNat_field (key : UInt64) : (key >>> 3).toNat = key.toNat / 8 := by
  rw [UInt64.toNat_shiftRight]
  exact shiftRight_eq_div_pow _ 3

theorem toNat_wireType (key : UInt64) : (key &&& 0x07).toNat = key.toNat % 8 := by
  rw [UInt64.toNat_and]
  exact and_two_pow_sub_one_eq_mod _ 3

theorem toNat_key (key : UInt64) : key.toNat = (key >>> 3).toNat * 8 + (key &&& 0x07).toNat := by
  rw [toNat_field, toNat_wireType]
  omega

theorem readVarint_append {value : Nat}
    (hdrop : addon.bytes.drop index = octets ++ rest) (hvarint : Varint octets value) :
    ∃ number, readVarint addon index = .ok (number, index + octets.length) ∧ number.toNat = value ∧
      addon.bytes.drop (index + octets.length) = rest := by
  have hrest : addon.bytes.drop (index + octets.length) = rest := by
    rw [← drop_drop, hdrop, drop_left]
  have hvalue : (UInt64.ofNat value).toNat = value := by
    apply UInt64.toNat_ofNat_of_lt'
    rw [hvarint.value_eq]
    exact mod_lt _ (by decide)
  refine ⟨UInt64.ofNat value, readVarint_iff.2 ⟨octets, ?_, rfl, ?_⟩, hvalue, hrest⟩
  · rw [hrest]
    exact hdrop
  · rw [hvalue]
    exact hvarint

theorem fieldAt_some (hfield : fieldAt addon index = some field) :
    ∃ key behind value, readVarint addon index = .ok (key, behind) ∧
      readVarint addon behind = .ok (value, field.start) ∧ field.number = (key >>> 3).toNat ∧
      ((key &&& 0x07 = 0 ∧ field.len = 0 ∧ field.text = none) ∨
        (key &&& 0x07 = 2 ∧ field.len = value ∧ fieldEnd field.start value ≤ addon.bytes.length ∧
          (field.start + value.toNat < 2 ^ 64 → field.text.map Text.bytes = if field.number = 1 then
              some ((addon.bytes.drop field.start).take value.toNat)
              else none))) := by
  rw [fieldAt] at hfield
  split at hfield
  · contradiction
  next key behind hkey =>
    split at hfield
    · contradiction
    next value start hvalue =>
      refine ⟨key, behind, value, hkey, ?_⟩
      by_cases hvarint : key &&& 0x07 = 0
      · rw [if_pos hvarint] at hfield
        cases hfield
        exact ⟨hvalue, rfl, .inl ⟨hvarint, rfl, rfl⟩⟩
      · rw [if_neg hvarint] at hfield
        split at hfield
        next hbytes =>
          split at hfield
          next hflow =>
            obtain ⟨flow, hutf8, rfl⟩ := map_eq_some_iff.1 hfield
            have hnumber : 1 = (key >>> 3).toNat := by
              rw [hflow.1]
              rfl
            refine ⟨hvalue, hnumber, .inr ⟨hbytes.1, rfl, hbytes.2, ?_⟩⟩
            intro _
            rw [if_pos rfl, map_some, fromUTF8?_eq_some_iff.1 hutf8]
          next hflow =>
            cases hfield
            refine ⟨hvalue, rfl, .inr ⟨hbytes.1, rfl, hbytes.2, ?_⟩⟩
            intro hfit
            rw [if_neg]
            · rfl
            · intro hnumber
              exact hflow ⟨UInt64.toNat_inj.1 hnumber, hfit⟩
        · contradiction

theorem record_of_fieldAt (hfield : fieldAt addon index = some field) (hsound : field.Sound) :
    ∃ (key octets : List UInt8) (record : Record), addon.bytes.drop index = key ++ (octets ++
        addon.bytes.drop (fieldEnd field.start field.len)) ∧ Legal record.number ∧
      Varint key (record.number * 8 + record.payload.wireType) ∧ record.payload.Encodes octets ∧
      field.text.map Text.bytes = record.bytesOf 1 := by
  obtain ⟨key, behind, value, hkey, hvalue, hnumber, hkind⟩ := fieldAt_some hfield
  obtain ⟨keyOctets, hfront, hbehind, hkeyVarint⟩ := readVarint_iff.1 hkey
  obtain ⟨octets, hback, hstart, hvalueVarint⟩ := readVarint_iff.1 hvalue
  have hend : fieldEnd field.start field.len =
      field.start + field.len.toNat := Nat.mod_eq_of_lt hsound.2
  rw [toNat_key, ← hnumber] at hkeyVarint
  rcases hkind with ⟨hwire, hlen, htext⟩ | ⟨hwire, hlen, hfit, htext⟩
  · refine ⟨keyOctets, octets, ⟨field.number, .varint value.toNat⟩, ?_,
      hsound.1, ?_, .varint hvalueVarint, ?_⟩
    · rw [hend, hlen, hfront, hback]
      rfl
    · rw [hwire] at hkeyVarint
      exact hkeyVarint
    · rw [htext]
      rfl
  · rw [hlen] at hend
    have hlength : ((addon.bytes.drop field.start).take value.toNat).length = value.toNat := by
      rw [length_take, length_drop]
      omega
    refine ⟨keyOctets, octets ++ (addon.bytes.drop field.start).take
      value.toNat, ⟨field.number, .bytes ((addon.bytes.drop field.start).take
      value.toNat)⟩, ?_, hsound.1, ?_, .bytes ?_, ?_⟩
    · rw [hlen, hend, ← drop_drop, append_assoc, take_append_drop, hfront, hback]
    · rw [hwire] at hkeyVarint
      exact hkeyVarint
    · rw [hlength]
      exact hvalueVarint
    · have hfits := hsound.2
      rw [hlen] at hfits
      exact htext hfits

theorem fieldAt_of_record {key : List UInt8} {record : Record}
    (hdrop : addon.bytes.drop index = key ++ (octets ++ rest)) (hlegal : Legal record.number)
    (hkey : Varint key (record.number * 8 + record.payload.wireType))
    (hpayload : record.payload.Encodes octets) (hfield : fieldAt addon index = some field) :
    field.Sound ∧ addon.bytes.drop (fieldEnd field.start field.len) = rest := by
  obtain ⟨number, hread, hnumber, hbehind⟩ := readVarint_append hdrop hkey
  obtain ⟨found, behind, value, hfound, hvalue, hown, hkind⟩ := fieldAt_some hfield
  rw [hread] at hfound
  cases hfound
  have hfits := addon.fits
  have hstart := (readVarint_index hvalue).2
  have hwireType : (number &&& 0x07).toNat = record.payload.wireType := by
    rw [toNat_wireType, hnumber]
    cases record.payload with
    | _ => simp only [Payload.wireType]; omega
  have hsame : field.number = record.number := by
    rw [hown, toNat_field, hnumber]
    cases record.payload with
    | _ => simp only [Payload.wireType]; omega
  rw [← hsame] at hlegal
  obtain ⟨own, payload⟩ := record
  cases hpayload with
  | varint hvarint =>
    obtain ⟨again, hagain, -, hrest⟩ := readVarint_append hbehind hvarint
    rw [hagain] at hvalue
    obtain ⟨rfl, hstop⟩ := Prod.mk.inj (Except.ok.inj hvalue)
    rcases hkind with ⟨-, hlen, -⟩ | ⟨hwire, -⟩
    · have hend : fieldEnd field.start field.len = field.start := by
        rw [fieldEnd, hlen]
        simp
        omega
      refine ⟨⟨hlegal, ?_⟩, ?_⟩
      · rw [hlen]
        simp
        omega
      · rw [hend, ← hstop, hrest]
    · rw [hwire] at hwireType
      contradiction
  | fixed64 hlength | fixed32 hlength =>
    rcases hkind with ⟨hwire, -⟩ | ⟨hwire, -⟩
    all_goals
      rw [hwire] at hwireType
      simp [Payload.wireType] at hwireType
  | @bytes lengthOctets data hlength =>
    rw [append_assoc] at hbehind
    obtain ⟨again, hagain, hdata, hrest⟩ := readVarint_append hbehind hlength
    rw [hagain] at hvalue
    obtain ⟨rfl, hstop⟩ := Prod.mk.inj (Except.ok.inj hvalue)
    rcases hkind with ⟨hwire, -⟩ | ⟨-, hlen, -⟩
    · rw [hwire] at hwireType
      contradiction
    · rw [hstop] at hrest
      have hinside := congrArg length hrest
      rw [length_drop, length_append] at hinside
      have hend : fieldEnd field.start field.len = field.start + data.length := by
        rw [fieldEnd, hlen, hdata]
        omega
      refine ⟨⟨hlegal, ?_⟩, ?_⟩
      · rw [hlen, hdata]
        omega
      · rw [hend, ← drop_drop, hrest, drop_left]

theorem sound_of_message {records : List Record}
    (hmessage : Message rest records) (hdrop : addon.bytes.drop index = rest)
    (hpath : ReflTransGen (NextField addon) index next)
    (hfield : fieldAt addon next = some field) : field.Sound := by
  induction hmessage generalizing index with
  | nil =>
    have hend := drop_eq_nil_iff.1 hdrop
    rcases hpath.cases_head with rfl | ⟨target, ⟨other, hother, -⟩, -⟩
    · exact absurd (lt_of_fieldAt hfield) (not_lt.2 hend)
    · exact absurd (lt_of_fieldAt hother) (not_lt.2 hend)
  | cons hlegal hkey hpayload _ ih =>
    rcases hpath.cases_head with rfl | ⟨target, ⟨other, hother, -, rfl⟩, hrest⟩
    · exact (fieldAt_of_record hdrop hlegal hkey hpayload hfield).1
    · exact ih (fieldAt_of_record hdrop hlegal hkey hpayload hother).2 hrest

theorem message_of_sound {fuel : Nat} {flow : String}
    (hsound : ∀ index, ReflTransGen (NextField addon) state.index index →
      ∀ field, fieldAt addon index = some field → field.Sound)
    (hrun : Loop.run (parseAddonTurn addon) fuel state = some (.returned (.ok flow))) :
    ∃ records, Message (addon.bytes.drop state.index) records ∧
      Text.bytes flow = (lastBytes 1 records).getD (Text.bytes state.flow) := by
  induction fuel generalizing state with
  | zero => contradiction
  | succ fuel ih =>
    rw [Loop.run] at hrun
    by_cases hindex : state.index < addon.bytes.length
    · rcases parseAddonTurn_cases hindex with ⟨-, error, hturn⟩ |
        ⟨field, -, -, hturn⟩ | ⟨field, hfield, hruns, hturn⟩
      · rw [hturn] at hrun
        simp at hrun
      · rw [hturn] at hrun
        simp at hrun
      · rw [hturn] at hrun
        have hmove : NextField addon state.index
            (fieldEnd field.start field.len) := ⟨field, hfield, hruns, rfl⟩
        obtain ⟨records, hmessage, hflow⟩ := ih
          (fun index hpath => hsound index (hpath.head hmove)) hrun
        obtain ⟨key, octets, record, hdrop, hlegal, hkey, hpayload, htext⟩ :=
          record_of_fieldAt hfield (hsound _ .refl field hfield)
        refine ⟨record :: records, ?_, ?_⟩
        · rw [hdrop]
          exact .cons hlegal hkey hpayload hmessage
        · rw [hflow, lastBytes, ← htext]
          cases lastBytes 1 records with
          | some data => rfl
          | none =>
            cases field.text with
            | none | some text => rfl
    · have hend := Nat.le_of_not_lt hindex
      rw [parseAddonTurn_end hend] at hrun
      simp only [some.injEq, AddonEnd.returned.injEq, Except.ok.injEq] at hrun
      subst hrun
      rw [drop_eq_nil_of_le hend]
      exact ⟨[], .nil, rfl⟩

theorem lt_of_nextField (hmove : NextField addon index next)
    (hsound : ∀ field, fieldAt addon index = some field → field.Sound) : index < next := by
  obtain ⟨field, hfield, -, rfl⟩ := hmove
  obtain ⟨key, behind, value, hkey, hvalue, -⟩ := fieldAt_some hfield
  have hbehind := (readVarint_index hkey).1
  have hstart := (readVarint_index hvalue).1
  have hend : fieldEnd field.start field.len = field.start + field.len.toNat :=
    Nat.mod_eq_of_lt (hsound field hfield).2
  omega

theorem parsesFlow_iff (addon : Slice) : ParsesFlow addon ↔
      (∃ error, Returns (parseAddonTurn addon) ⟨0, ""⟩ (.returned (.error error))) ∨
      ∃ flow records, Returns (parseAddonTurn addon) ⟨0, ""⟩ (.returned (.ok flow)) ∧
        Message addon.bytes records ∧ Text.bytes flow = (lastBytes 1 records).getD [] := by
  have hmoves := movesBy_nextField addon
  -- the turn that stops, and when it comes
  have hbounded : ∀ result, Returns (parseAddonTurn addon) ⟨0, ""⟩ result →
      ∃ last : AddonState, parseAddonTurn addon last = .stop result ∧
        parseAddonFlow addon (addon.bytes.length + 1) = some result ∧
        (last.index < addon.bytes.length →
          parseAddonFlow addon addon.bytes.length = some result) := by
    intro result hreturns
    obtain ⟨last, found, hstop, hmore, hless⟩ := hmoves.exists_run
      (fun ⟨field, hfield, _⟩ => lt_of_fieldAt hfield) (fun target hpath hcycle =>
        hmoves.not_returns_of_cycle hpath hcycle result hreturns)
    obtain rfl := Returns.unique hreturns ⟨_, hmore⟩
    exact ⟨last, hstop, hmore, hless⟩
  constructor
  · rintro (⟨error, hrun⟩ | ⟨flow, records, hrun, hmessage⟩)
    · exact .inl ⟨error, _, hrun⟩
    · exact .inr ⟨flow, records, ⟨_, hrun⟩, hmessage⟩
  · rintro (⟨error, hreturns⟩ | ⟨flow, records, hreturns, hmessage⟩)
    · obtain ⟨last, hstop, -, hless⟩ := hbounded _ hreturns
      exact .inl ⟨error, hless (parseAddonTurn_error_iff.1 ⟨error, hstop⟩).1⟩
    · obtain ⟨last, -, hmore, -⟩ := hbounded _ hreturns
      exact .inr ⟨flow, records, hmore, hmessage⟩

/-- A call returns in time, and what it should, exactly for the addons whose
fields are walked over soundly. -/
theorem parseAddonFlow_parses_iff (addon : Slice) : ParsesFlow addon ↔ WalksSoundly addon := by
  have hmoves := movesBy_nextField addon
  rw [parsesFlow_iff]
  -- a call that returns has come to no flow that runs over
  have hnever : ∀ result, Returns (parseAddonTurn addon) ⟨0, ""⟩
      (.returned result) → ∀ index, ReflTransGen (NextField addon) 0 index →
      ∀ field, fieldAt addon index = some field → ¬ field.RunsOver := by
    intro result hreturns index hpath field hfield hruns
    obtain ⟨last, rfl, hsame⟩ := @MovesBy.follow _ _ _ _ _ hmoves ⟨0, ""⟩ _ hpath
    have habort := returns_of_stop (parseAddonTurn_aborted_iff.2 ⟨field, hfield, hruns⟩)
    exact absurd (((hsame _).1 hreturns).unique habort) (by simp)
  constructor
  · rintro (⟨error, hreturns⟩ | ⟨flow, records, hreturns, hmessage, -⟩)
    · obtain ⟨last, hpath, hstop⟩ := hmoves.stops_at hreturns
      exact ⟨hnever _ hreturns, .inl ⟨last.index, hpath, parseAddonTurn_error_iff.1 ⟨error, hstop⟩⟩⟩
    · exact ⟨hnever _ hreturns, .inr fun index hpath field hfield =>
        sound_of_message hmessage rfl hpath hfield⟩
  · rintro ⟨hruns, ⟨index, hpath, hindex, hnone⟩ | hsound⟩
    · obtain ⟨last, rfl, hsame⟩ := @MovesBy.follow _ _ _ _ _ hmoves ⟨0, ""⟩ _ hpath
      obtain ⟨error, hstop⟩ := parseAddonTurn_error_iff.2 ⟨hindex, hnone⟩
      exact .inl ⟨error, (hsame _).2 (returns_of_stop hstop)⟩
    · have hahead : ∀ index next, ReflTransGen (NextField addon) 0 index →
          TransGen (NextField addon) index next → index < next := by
        intro index next hpath hmoves
        induction hmoves with
        | single hmove => exact lt_of_nextField hmove (hsound index hpath)
        | tail hmoves hmove ih =>
          exact ih.trans (lt_of_nextField hmove (hsound _ (hpath.trans hmoves.to_reflTransGen)))
      obtain ⟨result, fuel, hrun⟩ := @MovesBy.exists_returns _ _ _ _ _ hmoves
        addon.bytes.length (fun ⟨field, hfield, _⟩ => lt_of_fieldAt hfield)
        ⟨0, ""⟩ fun target hpath hcycle => absurd (hahead target target hpath hcycle) (lt_irrefl _)
      match result with
      | .returned (.error error) => exact .inl ⟨error, fuel, hrun⟩
      | .returned (.ok flow) =>
        obtain ⟨records, hmessage, hflow⟩ := message_of_sound hsound hrun
        exact .inr ⟨flow, records, ⟨fuel, hrun⟩, hmessage, hflow⟩
      | .aborted =>
        obtain ⟨last, hpath, hstop⟩ := hmoves.stops_at ⟨fuel, hrun⟩
        obtain ⟨field, hfield, hover⟩ := parseAddonTurn_aborted_iff.1 hstop
        exact absurd hover (hruns _ hpath field hfield)

theorem not_parsesFlow {addon : Slice} {outcome : Option AddonEnd}
    (hless : parseAddonFlow addon addon.bytes.length = outcome)
    (hmore : parseAddonFlow addon (addon.bytes.length + 1) = outcome)
    (houtcome : ∀ result, outcome ≠ some (.returned result)) : ¬ ParsesFlow addon := by
  rintro (⟨error, hrun⟩ | ⟨flow, records, hrun, -⟩)
  · exact houtcome _ (hless.symm.trans hrun)
  · exact houtcome _ (hmore.symm.trans hrun)

/-- A flow of length 2^64 - 1 aborts the process, and field 2 with length
2^64 - 11 leads back to its own key. -/
theorem parseAddonFlow_aborts_and_loops :
    ¬ ParsesFlow overrunningData ∧ ¬ ParsesFlow loopingField :=
  ⟨@not_parsesFlow _ (some .aborted) rfl rfl (by simp), @not_parsesFlow _ none rfl rfl (by simp)⟩

end KeliCore
