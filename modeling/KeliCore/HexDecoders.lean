/-
The decoders of hexadecimal text, with the aborts of the process.  VMess, TUIC
and REALITY cut the text into pairs of bytes, which aborts where a pair ends
inside a character, and `u8::from_str_radix` takes a plus sign for the first
digit of a pair.
-/
import KeliCore.Controller
import KeliCore.Slicing
import Mathlib.Data.List.DropRight

namespace KeliCore

open Sample

open Slicing Text
open String (ofList fromUTF8 toList_ofList ofList_toList utf8EncodeChar)
open List hiding splitAt

variable {char : Char}

/-- The loop over the pairs that start at some offsets. -/
def readPairs (invalid : String) (text : List Char) : List Nat → Attempt String (List UInt8)
  | [] => .ok []
  | start :: starts =>
    match slice text start (start + 2) with
    | none => .panicked
    | some pair =>
      match fromStrRadix 16 255 (String.ofList pair) with
      | none => .err invalid
      | some value => (readPairs invalid text starts).map (UInt8.ofNat value :: ·)

/-- `parse_uuid_bytes` of VMess and of TUIC, up to the texts of the errors. -/
def parseUuidPairs (length invalid : String) (value : String) : Attempt String (List UInt8) :=
  let compact := value.toList.filter (· != '-')
  if (bytes (String.ofList compact)).length ≠ 32 then .err length
  else readPairs invalid compact ((List.range 16).map (· * 2))

def Vmess.parseUuidBytes : String → Attempt String (List UInt8) :=
  parseUuidPairs "vmess user uuid must be 16 bytes" "vmess user uuid is invalid"

def Tuic.parseUuidBytes : String → Attempt String (List UInt8) :=
  parseUuidPairs "tuic user uuid must be 16 bytes" "tuic user uuid is invalid"

/-- The loop over `chunks_exact(2)`. -/
def readChunks : List UInt8 → Attempt String (List UInt8)
  | high :: low :: rest =>
    match String.fromUTF8? [high, low].toByteArray with
    | none => .err "invalid vless uuid"
    | some hex =>
      match fromStrRadix 16 255 hex with
      | none => .err "invalid vless uuid"
      | some value => (readChunks rest).map (UInt8.ofNat value :: ·)
  | _ => .ok []

def Vless.parseUuidBytes (env : Externals) (value : String) : Attempt String (List UInt8) :=
  let value := compactUuid env value
  if (bytes value).length ≠ 32 then
    .err "vless uuid must contain 32 hex characters"
  else readChunks (bytes value)

namespace Reality

def decodeHex (value : String) : Attempt String (List UInt8) :=
  let value := trim value
  let length := (bytes value).length
  if length % 2 ≠ 0 then .err "hex string must have an even length"
  else
    readPairs "hex string contains invalid characters" value.toList
      ((List.range (length / 2)).map (· * 2))

/-- The message of `RealityAuthError::InvalidClientHello`. -/
def invalidClientHello (message : String) : String :=
  s!"invalid reality client hello: {message}"

/-- The end of `decode_short_id`: eight bytes, padded with zeros. -/
def padShortId : Attempt String (List UInt8) → Attempt String (List UInt8)
  | .ok decoded => .ok (decoded ++ List.replicate (8 - decoded.length) 0)
  | .err message => .err (invalidClientHello message)
  | .panicked => .panicked

def decodeShortId (value : String) : Attempt String (List UInt8) :=
  let value := trim value
  let length := (bytes value).length
  if 16 < length ∨ length % 2 ≠ 0 then
    .err (invalidClientHello "short_id must be 0 to 8 bytes of hex")
  else padShortId (decodeHex value)

end Reality

/-- The bytes that hexadecimal digits denote; nothing else denotes any. -/
def hexValue : List Char → Option (List UInt8)
  | [] => some []
  | [_] => none
  | high :: low :: rest => do
      let first ← digit? 16 high
      let second ← digit? 16 low
      let tail ← hexValue rest
      some (UInt8.ofNat (first * 16 + second) :: tail)

/-- What is left after the pairs that `u8::from_str_radix` takes. -/
def unreadPairs : List Char → List Char
  | high :: low :: rest =>
    if (fromStrRadix 16 255 (String.ofList [high, low])).isSome then
      unreadPairs rest
    else high :: low :: rest
  | rest => rest

/-- The call returns, and it returns what the digits denote. -/
def HexDecodes (attempt : Attempt String (List UInt8)) (denotes : List UInt8 → Prop) : Prop :=
  attempt ≠ .panicked ∧ ∀ decoded, attempt = .ok decoded ↔ denotes decoded

/-- If all pairs are taken, none has a plus sign; and the first one that is not
ends between two characters. -/
def Sane (text : List Char) : Prop :=
  if unreadPairs text = [] then '+' ∉ text
  else (splitAt 2 (unreadPairs text)).isSome = true

theorem length_bytes (text : List Char) : (bytes (ofList text)).length = size text := by
  rw [bytes, toList_ofList, length_flatMap, size]
  simp only [String.length_utf8EncodeChar]

variable {value : Nat} {high low : Char} {text : List Char} {decoded octets : List UInt8}

theorem digit?_spec (hdigit : digit? 16 char = some value) :
    value < 16 ∧ char.toNat < 128 ∧ char ≠ '+' ∧ char ≠ '-' ∧ isWhitespace char = false := by
  have hplus : char ≠ '+' := by
    rintro rfl
    simp [digit?] at hdigit
  have hminus : char ≠ '-' := by
    rintro rfl
    simp [digit?] at hdigit
  simp only [digit?, Option.filter_eq_some_iff, decide_eq_true_eq] at hdigit
  obtain ⟨hvalue, hlt⟩ := hdigit
  have hrange : (48 ≤ char.toNat ∧ char.toNat ≤ 57) ∨ (97 ≤ char.toNat ∧ char.toNat ≤ 102) ∨
      (65 ≤ char.toNat ∧ char.toNat ≤ 70) := by
    split at hvalue
    next hdecimal =>
      simp at hdecimal
      omega
    · split at hvalue
      next hlower =>
        simp at hlower
        omega
      · split at hvalue
        next hupper =>
          simp at hupper
          omega
        · contradiction
  refine ⟨hlt, by omega, hplus, hminus, ?_⟩
  simp only [isWhitespace, Bool.or_eq_false_iff, Bool.and_eq_false_iff,
    decide_eq_false_iff_not, beq_eq_false_iff_ne]
  omega

theorem utf8Size_eq_one_iff : char.utf8Size = 1 ↔ char.toNat < 128 := by
  rw [Char.utf8Size_eq_one_iff, UInt32.le_iff_toNat_le]
  change char.toNat ≤ 127 ↔ _
  omega

/-- A pair is taken if both are digits, or the first is a plus sign. -/
theorem fromStrRadix_pair (high low : Char) :
    fromStrRadix 16 255 (ofList [high, low]) = if high = '+' then digit? 16 low
      else (digit? 16 high).bind fun first =>
        (digit? 16 low).map fun second => first * 16 + second := by
  rw [fromStrRadix, toList_ofList]
  split
  · simp at *
  · simp at *
  next heq =>
    cases heq
    rw [if_pos rfl]
    cases hlow : digit? 16 low with
    | none => simp [digits?, hlow]
    | some second =>
      have hlt := (digit?_spec hlow).1
      simp only [digits?, hlow]
      rw [if_neg (by omega)]
      simp
  next _ hplus =>
    have hne : high ≠ '+' := by
      rintro rfl
      exact hplus _ rfl
    rw [if_neg hne]
    cases hhigh : digit? 16 high with
    | none => simp [digits?, hhigh]
    | some first =>
      have hfirst := (digit?_spec hhigh).1
      cases hlow : digit? 16 low with
      | none => simp [digits?, hhigh, hlow]
      | some second =>
        have hsecond := (digit?_spec hlow).1
        simp only [digits?, hhigh, hlow]
        rw [if_neg (by omega), if_neg (by omega)]
        simp

theorem ascii_of_pair (hsome : (fromStrRadix 16 255 (ofList [high, low])).isSome = true) :
    high.utf8Size = 1 ∧ low.utf8Size = 1 := by
  rw [fromStrRadix_pair] at hsome
  simp only [utf8Size_eq_one_iff]
  split at hsome
  next hplus =>
    obtain ⟨second, hlow⟩ := Option.isSome_iff_exists.1 hsome
    rw [hplus]
    exact ⟨by decide, (digit?_spec hlow).2.1⟩
  · obtain ⟨value, hvalue⟩ := Option.isSome_iff_exists.1 hsome
    obtain ⟨first, hhigh, hrest⟩ := Option.bind_eq_some_iff.1 hvalue
    obtain ⟨second, hlow, -⟩ := Option.map_eq_some_iff.1 hrest
    exact ⟨(digit?_spec hhigh).2.1, (digit?_spec hlow).2.1⟩

theorem fromStrRadix_single (hwide : char.utf8Size ≠ 1) :
    fromStrRadix 16 255 (ofList [char]) = none := by
  have hnone : digit? 16 char = none := by
    by_contra hsome
    obtain ⟨value, hvalue⟩ := Option.ne_none_iff_exists'.1 hsome
    exact hwide (utf8Size_eq_one_iff.2 (digit?_spec hvalue).2.1)
  rw [fromStrRadix, toList_ofList]
  split
  · simp at *
  · rfl
  next heq =>
    cases heq
    exact absurd (by decide) hwide
  · simp [digits?, hnone]

def pairValues : List Char → List UInt8
  | high :: low :: rest =>
    UInt8.ofNat ((fromStrRadix 16 255 (String.ofList [high, low])).getD 0) :: pairValues rest
  | _ => []

theorem unreadPairs_cons_of_wide (hwide : char.utf8Size ≠ 1)
    (rest : List Char) : unreadPairs (char :: rest) = char :: rest := by
  cases rest with
  | nil => rfl
  | cons low rest => rw [unreadPairs, if_neg fun hsome => hwide (ascii_of_pair hsome).1]

/-- What the loop makes of a text with an even number of bytes. -/
def verdict (invalid : String) (text : List Char) : Attempt String (List UInt8) :=
  if unreadPairs text = [] then .ok (pairValues text)
  else if (splitAt 2 (unreadPairs text)).isSome then .err invalid
  else .panicked

theorem verdict_pair (hvalue : fromStrRadix 16 255 (ofList [high, low]) = some value)
    (invalid : String) (rest : List Char) : verdict invalid (high :: low :: rest) =
      (verdict invalid rest).map (UInt8.ofNat value :: ·) := by
  have hunread : unreadPairs (high :: low :: rest) = unreadPairs rest := by
    rw [unreadPairs, hvalue]
    rfl
  rw [verdict, hunread, pairValues, hvalue, verdict]
  split
  · rfl
  · split <;> rfl

theorem verdict_stop (hsome : text ≠ []) (hunread : unreadPairs text = text) (invalid : String) :
    verdict invalid text = if (splitAt 2 text).isSome then .err invalid else .panicked := by
  rw [verdict, hunread, if_neg hsome]

theorem readPairs_from (invalid : String) (count start : Nat)
    (front rest : List Char) (hfront : size front = start * 2) (hrest : size rest = count * 2) :
    readPairs invalid (front ++ rest)
      ((range' start count).map (· * 2)) = verdict invalid rest := by
  induction count generalizing start front rest with
  | zero =>
    obtain rfl := size_eq_zero_iff.1 (hrest.trans (Nat.zero_mul 2))
    rfl
  | succ count ih =>
    rw [range'_succ, map_cons, readPairs, ← hfront, slice_append]
    have hsome : rest ≠ [] := by
      rintro rfl
      simp at hrest
    cases hsplit : splitAt 2 rest with
    | none =>
      have hunread : unreadPairs rest = rest := by
        rcases rest with _ | ⟨high, _ | ⟨low, rest⟩⟩
        · contradiction
        · rfl
        · rw [unreadPairs, if_neg]
          intro hpair
          obtain ⟨hhigh, hlow⟩ := ascii_of_pair hpair
          simp [splitAt, hhigh, hlow] at hsplit
      rw [verdict_stop hsome hunread, hsplit]
      rfl
    | some parts =>
      obtain ⟨pair, tail⟩ := parts
      obtain ⟨htext, hpair⟩ := append_of_splitAt hsplit
      rcases pair with _ | ⟨high, _ | ⟨low, more⟩⟩
      · simp at hpair
      · have hhigh : high.utf8Size ≠ 1 := by
          simp at hpair
          omega
        have hunread := unreadPairs_cons_of_wide hhigh tail
        change rest = high :: tail at htext
        rw [← htext] at hunread
        rw [verdict_stop hsome hunread, hsplit]
        dsimp only [Option.map_some]
        rw [fromStrRadix_single hhigh]
        rfl
      · have hhigh := high.utf8Size_pos
        have hlow := low.utf8Size_pos
        obtain rfl : more = [] := by
          rw [← size_eq_zero_iff]
          simp only [size_cons] at hpair
          omega
        change rest = high :: low :: tail at htext
        dsimp only [Option.map_some]
        cases hvalue : fromStrRadix 16 255 (ofList [high, low]) with
        | none =>
          have hunread : unreadPairs rest = rest := by
            rw [htext, unreadPairs, hvalue]
            rfl
          rw [verdict_stop hsome hunread, hsplit]
          rfl
        | some value =>
          have hsize : size tail = count * 2 := by
            rw [htext] at hrest
            simp only [size_cons, size_nil] at hrest hpair
            omega
          have htail := ih (start + 1) (front ++ [high, low]) tail
            (by rw [size_append, hfront, hpair]; omega) hsize
          rw [append_assoc] at htail
          rw [htext, verdict_pair hvalue, ← htail]
          rfl

theorem readPairs_eq (invalid : String) {count : Nat} (hsize : size text = count * 2) :
    readPairs invalid text ((range count).map (· * 2)) = verdict invalid text := by
  have hfrom := readPairs_from invalid count 0 [] text rfl hsize
  rw [nil_append, ← range_eq_range'] at hfrom
  exact hfrom

theorem hexValue_eq (text : List Char) : hexValue text = if unreadPairs text = [] ∧ '+' ∉ text
      then some (pairValues text) else none := by
  induction text using hexValue.induct with
  | case1 => rfl
  | case2 char => simp [hexValue, unreadPairs]
  | case3 high low rest ih =>
    rw [hexValue, unreadPairs, pairValues, fromStrRadix_pair, ih]
    by_cases hplus : high = '+'
    · have hnone : digit? 16 '+' = none := by decide
      simp [hplus, hnone]
    · cases hhigh : digit? 16 high with
      | none => simp [hplus]
      | some first =>
        cases hlow : digit? 16 low with
        | none => simp [hplus]
        | some second =>
          have hlowPlus : low ≠ '+' := (digit?_spec hlow).2.2.1
          by_cases hrest : unreadPairs rest = [] ∧ '+' ∉ rest
          all_goals simp [hplus, hrest, hlowPlus.symm, Ne.symm hplus]

theorem ascii_of_hexValue (hvalue : hexValue text = some decoded) :
    (∀ char ∈ text, ∃ value, digit? 16 char = some value) ∧ text.length = decoded.length * 2 := by
  induction text using hexValue.induct generalizing decoded with
  | case1 =>
    cases hvalue
    simp
  | case2 char => simp [hexValue] at hvalue
  | case3 high low rest ih =>
    simp only [hexValue, Option.bind_eq_bind, Option.bind_eq_some_iff, Option.some.injEq] at hvalue
    obtain ⟨first, hhigh, second, hlow, tail, htail, rfl⟩ := hvalue
    obtain ⟨hdigits, hlen⟩ := ih htail
    simp only [mem_cons, forall_eq_or_imp, length_cons]
    exact ⟨⟨⟨first, hhigh⟩, ⟨second, hlow⟩, hdigits⟩, by omega⟩

theorem size_of_hexValue (hvalue : hexValue text = some decoded) : size text = text.length := by
  obtain ⟨hdigits, -⟩ := ascii_of_hexValue hvalue
  clear hvalue
  induction text with
  | nil => rfl
  | cons char text ih =>
    rw [forall_mem_cons] at hdigits
    obtain ⟨value, hchar⟩ := hdigits.1
    rw [size_cons, utf8Size_eq_one_iff.2 (digit?_spec hchar).2.1,
      ih hdigits.2, length_cons, Nat.add_comm]

theorem decodes_verdict_iff (invalid : String) (text : List Char) :
    HexDecodes (verdict invalid text) (fun decoded =>
      hexValue text = some decoded) ↔ Sane text := by
  rw [HexDecodes, hexValue_eq, verdict, Sane]
  by_cases hunread : unreadPairs text = []
  · by_cases hplus : '+' ∈ text <;> simp [hunread, hplus]
  · simp only [hunread, false_and, if_false]
    by_cases hsplit : (splitAt 2 (unreadPairs text)).isSome = true <;> simp [hsplit]

/-- A decoder that fails returns what its text denotes if that is nothing. -/
theorem decodes_err {denotes : List UInt8 → Prop}
    (hnone : ∀ decoded, ¬ denotes decoded) (message : String) : HexDecodes (.err message) denotes :=
  ⟨by simp, fun decoded => by simp [hnone decoded]⟩

def UuidOf (digits : List Char) (decoded : List UInt8) : Prop :=
  hexValue digits = some decoded ∧ digits.length = 32

theorem decodes_uuid_iff (length invalid value : String) :
    HexDecodes (parseUuidPairs length invalid value) (UuidOf (value.toList.filter (· != '-'))) ↔
      size (value.toList.filter (· != '-')) ≠ 32 ∨ Sane (value.toList.filter (· != '-')) := by
  rw [parseUuidPairs]
  generalize value.toList.filter (· != '-') = compact
  rw [length_bytes]
  by_cases hsize : size compact = 32
  · rw [if_neg (by simpa using hsize), readPairs_eq invalid hsize,
      ← decodes_verdict_iff invalid compact]
    have hdenotes : UuidOf compact = fun decoded => hexValue compact = some decoded := by
      funext decoded
      apply propext
      refine ⟨fun huuid => huuid.1, fun hvalue => ⟨hvalue, ?_⟩⟩
      rw [← size_of_hexValue hvalue]
      exact hsize
    rw [hdenotes]
    simp [hsize]
  · rw [if_pos hsize]
    refine iff_of_true (decodes_err ?_ length) (.inl hsize)
    rintro decoded ⟨hvalue, hlen⟩
    exact hsize ((size_of_hexValue hvalue).trans hlen)

theorem size_trim (value : String) : (bytes (trim value)).length = size (trim value).toList := by
  rw [← length_bytes, ofList_toList]

theorem hexValue_of_odd (hodd : size text % 2 ≠ 0) : hexValue text = none := by
  by_contra hsome
  obtain ⟨decoded, hvalue⟩ := Option.ne_none_iff_exists'.1 hsome
  rw [size_of_hexValue hvalue, (ascii_of_hexValue hvalue).2] at hodd
  omega

theorem decodeHex_even {value : String} (heven : size (trim value).toList % 2 = 0) :
    Reality.decodeHex value =
      verdict "hex string contains invalid characters" (trim value).toList := by
  rw [Reality.decodeHex, size_trim, if_neg (by simpa using heven), readPairs_eq]
  omega

theorem decodes_decodeHex_iff (value : String) :
    HexDecodes (Reality.decodeHex value) (fun decoded =>
        hexValue (trim value).toList = some decoded) ↔
      size (trim value).toList % 2 ≠ 0 ∨ Sane (trim value).toList := by
  by_cases hodd : size (trim value).toList % 2 = 0
  · rw [decodeHex_even hodd, decodes_verdict_iff]
    simp [hodd]
  · rw [Reality.decodeHex, size_trim, if_pos hodd]
    refine iff_of_true (decodes_err ?_ _) (.inl hodd)
    intro decoded hvalue
    rw [hexValue_of_odd hodd] at hvalue
    cases hvalue

/-- The eight bytes of a short id, and the digits that denote its front. -/
def ShortIdOf (digits : List Char) (shortId : List UInt8) : Prop :=
  ∃ decoded, hexValue digits = some decoded ∧ decoded.length ≤ 8 ∧
    shortId = decoded ++ List.replicate (8 - decoded.length) 0

theorem dropWhile_trim (p : Char → Bool) (text : List Char) :
    (trimMatchesList p text).dropWhile p = trimMatchesList p text := by
  have hprefix : trimMatchesList p text <+: text.dropWhile p := rdropWhile_prefix p _
  cases htrim : trimMatchesList p text with
  | nil => rfl
  | cons char rest =>
    rw [htrim] at hprefix
    obtain ⟨back, hback⟩ := hprefix
    have hagain := dropWhile_idempotent p text
    rw [← hback, cons_append, dropWhile_cons] at hagain
    split at hagain
    · have hlen := congrArg length hagain
      have hle := (dropWhile_sublist p (l := rest ++ back)).length_le
      rw [length_cons] at hlen
      omega
    next hchar => rw [dropWhile_cons, if_neg hchar]

theorem trim_trim (value : String) : trim (trim value) = trim value := by
  simp only [trim, trimMatches, toList_ofList]
  congr 1
  rw [trimMatchesList, dropWhile_trim]
  exact rdropWhile_idempotent _ _

theorem decodes_padShortId_iff (hsize : size text ≤ 16) (invalid : String) :
    HexDecodes (Reality.padShortId (verdict invalid text)) (ShortIdOf text) ↔ Sane text := by
  have hvalue := hexValue_eq text
  rw [verdict, Sane]
  by_cases hunread : unreadPairs text = []
  · rw [if_pos hunread, if_pos hunread]
    by_cases hplus : '+' ∈ text
    · rw [if_neg fun hboth => hboth.2 hplus] at hvalue
      refine iff_of_false (fun hdecodes => ?_) (not_not_intro hplus)
      obtain ⟨decoded, hdecoded, -⟩ := (hdecodes.2 _).1 rfl
      rw [hvalue] at hdecoded
      contradiction
    · rw [if_pos ⟨hunread, hplus⟩] at hvalue
      have hlen : (pairValues text).length ≤ 8 := by
        rw [size_of_hexValue hvalue, (ascii_of_hexValue hvalue).2] at hsize
        omega
      refine iff_of_true ⟨by simp [Reality.padShortId], fun shortId => ?_⟩ hplus
      constructor
      · intro hok
        exact ⟨_, hvalue, hlen, (Attempt.ok.inj hok).symm⟩
      · rintro ⟨decoded, hdecoded, -, rfl⟩
        rw [hvalue] at hdecoded
        cases hdecoded
        rfl
  · rw [if_neg fun hboth => hunread hboth.1] at hvalue
    have hnone : ∀ shortId, ¬ ShortIdOf text shortId := by
      rintro shortId ⟨decoded, hdecoded, -⟩
      rw [hvalue] at hdecoded
      contradiction
    rw [if_neg hunread, if_neg hunread]
    by_cases hsplit : (splitAt 2 (unreadPairs text)).isSome = true
    · rw [if_pos hsplit]
      exact iff_of_true (decodes_err hnone _) hsplit
    · rw [if_neg hsplit]
      exact iff_of_false (fun hdecodes => hdecodes.1 rfl) hsplit

theorem decodes_decodeShortId_iff (value : String) :
    HexDecodes (Reality.decodeShortId value) (ShortIdOf (trim value).toList) ↔
      16 < size (trim value).toList ∨ size (trim value).toList % 2 ≠ 0 ∨
        Sane (trim value).toList := by
  rw [Reality.decodeShortId, size_trim, ← or_assoc]
  by_cases hsize : 16 < size (trim value).toList ∨ size (trim value).toList % 2 ≠ 0
  · rw [if_pos hsize]
    refine iff_of_true (decodes_err ?_ _) (.inl hsize)
    rintro shortId ⟨decoded, hvalue, hlen, -⟩
    rw [size_of_hexValue hvalue, (ascii_of_hexValue hvalue).2] at hsize
    omega
  · rw [if_neg hsize, or_iff_right hsize, decodeHex_even, trim_trim]
    · exact decodes_padShortId_iff (by omega) _
    · rw [trim_trim]
      omega

theorem fromUTF8?_eq_some_iff {text : String} :
    String.fromUTF8? octets.toByteArray = some text ↔ bytes text = octets := by
  have hencode : (bytes text).toByteArray = text.toByteArray := String.utf8Encode_toList
  constructor
  · intro hsome
    rw [String.fromUTF8?] at hsome
    split at hsome
    · cases hsome
      exact toByteArray_inj.1 hencode
    · contradiction
  · rintro rfl
    rw [hencode, String.fromUTF8?, dif_pos text.isValidUTF8]
    rfl

theorem utf8EncodeChar_ascii (hascii : char.toNat < 128) :
    utf8EncodeChar char = [UInt8.ofNat char.toNat] := by
  rw [utf8EncodeChar]
  exact if_pos (Nat.le_of_lt_succ hascii)

/-- The first byte tells a character of one byte from the others. -/
theorem head_utf8EncodeChar {octet : UInt8} (hencode : utf8EncodeChar char = octet :: octets)
    (hascii : octet.toNat < 128) : char.toNat < 128 := by
  by_contra hwide
  have hvalid : char.val.toNat < 1114112 := by
    have := char.valid
    rw [UInt32.isValidChar, Nat.isValidChar] at this
    omega
  change ¬ char.val.toNat < 128 at hwide
  rw [utf8EncodeChar, if_neg (by omega)] at hencode
  repeat' split at hencode
  all_goals
    obtain ⟨rfl, -⟩ := cons.inj hencode
    rw [UInt8.toNat_ofNat_of_lt' (by simp [UInt8.size]; omega)] at hascii
    omega

theorem bytes_cons (char : Char) (text : List Char) : bytes (ofList (char :: text)) =
      utf8EncodeChar char ++ bytes (ofList text) := by
  simp only [bytes, toList_ofList, flatMap_cons]

/-- A text whose first byte is that of a character of one byte starts with
that character. -/
theorem cons_of_bytes (hascii : char.toNat < 128)
    (hbytes : bytes (ofList text) = UInt8.ofNat char.toNat :: octets) :
    ∃ rest, text = char :: rest ∧ bytes (ofList rest) = octets := by
  cases text with
  | nil => simp [bytes] at hbytes
  | cons head rest =>
    rw [bytes_cons] at hbytes
    have hsmall : (UInt8.ofNat char.toNat).toNat = char.toNat :=
      UInt8.toNat_ofNat_of_lt' (by simp [UInt8.size]; omega)
    have hhead : head.toNat < 128 := by
      cases hencode : utf8EncodeChar head with
      | nil => exact absurd hencode (by simp)
      | cons octet tail =>
        rw [hencode, cons_append] at hbytes
        apply head_utf8EncodeChar hencode
        rw [(cons.inj hbytes).1, hsmall]
        exact hascii
    rw [utf8EncodeChar_ascii hhead] at hbytes
    obtain ⟨hsame, hrest⟩ := cons.inj hbytes
    refine ⟨rest, ?_, hrest⟩
    have hnat := congrArg UInt8.toNat hsame
    rw [hsmall, UInt8.toNat_ofNat_of_lt' (by simp [UInt8.size]; omega)] at hnat
    rw [Char.toNat_inj.1 hnat]

theorem pair_of_chunk {high low : UInt8} {rest : List UInt8} {hex : String}
    (hbytes : bytes (String.ofList text) = high :: low :: rest)
    (hhex : String.fromUTF8? [high, low].toByteArray = some hex)
    (hvalue : fromStrRadix 16 255 hex = some value) :
    ∃ first second tail, text = first :: second :: tail ∧
      fromStrRadix 16 255 (String.ofList [first, second]) = some value ∧
      bytes (String.ofList tail) = rest := by
  rw [fromUTF8?_eq_some_iff, ← String.ofList_toList (s := hex)] at hhex
  rw [← String.ofList_toList (s := hex)] at hvalue
  have hsize : size hex.toList = 2 := by
    rw [← length_bytes, hhex]
    rfl
  match hchars : hex.toList, hsize with
  | [], hsize => simp at hsize
  | [wide], hsize =>
    rw [hchars, fromStrRadix_single (by simp at hsize; omega)] at hvalue
    contradiction
  | first :: second :: more, hsize =>
    have hfirst := first.utf8Size_pos
    have hsecond := second.utf8Size_pos
    simp only [size_cons] at hsize
    obtain rfl : more = [] := by
      rw [← size_eq_zero_iff]
      omega
    have hone : first.toNat < 128 := utf8Size_eq_one_iff.1 (by omega)
    have htwo : second.toNat < 128 := utf8Size_eq_one_iff.1 (by omega)
    rw [hchars, bytes_cons, bytes_cons, utf8EncodeChar_ascii hone,
      utf8EncodeChar_ascii htwo] at hhex
    cases hhex
    obtain ⟨back, rfl, hback⟩ := cons_of_bytes hone hbytes
    obtain ⟨tail, rfl, htail⟩ := cons_of_bytes htwo hback
    rw [hchars] at hvalue
    exact ⟨first, second, tail, rfl, hvalue, htail⟩

theorem exists_pair (hsome : text ≠ []) (hunread : unreadPairs text = []) :
    ∃ first second tail, text = first :: second :: tail ∧
      (fromStrRadix 16 255 (ofList [first, second])).isSome = true := by
  match text with
  | [] => contradiction
  | [_] => simp [unreadPairs] at hunread
  | first :: second :: tail =>
    refine ⟨first, second, tail, rfl, ?_⟩
    by_contra hpair
    rw [unreadPairs, if_neg hpair] at hunread
    contradiction

theorem chunk_of_pair {first second : Char} {tail : List Char}
    {high low : UInt8} {rest : List UInt8}
    (hbytes : bytes (String.ofList (first :: second :: tail)) = high :: low :: rest)
    (hsome : (fromStrRadix 16 255 (String.ofList [first, second])).isSome = true) :
    String.fromUTF8? [high, low].toByteArray = some (String.ofList [first, second]) := by
  obtain ⟨hfirst, hsecond⟩ := ascii_of_pair hsome
  rw [utf8Size_eq_one_iff] at hfirst hsecond
  rw [bytes_cons, bytes_cons, utf8EncodeChar_ascii hfirst, utf8EncodeChar_ascii hsecond] at hbytes
  cases hbytes
  rw [fromUTF8?_eq_some_iff, bytes_cons, bytes_cons,
    utf8EncodeChar_ascii hfirst, utf8EncodeChar_ascii hsecond]
  rfl

/-- What the loop over the bytes makes of a text with an even number of
them. -/
theorem readChunks_eq (heven : size text % 2 = 0) :
    readChunks (bytes (String.ofList text)) = if unreadPairs text = [] then .ok (pairValues text)
      else .err "invalid vless uuid" := by
  generalize hbytes : bytes (String.ofList text) = octets
  have hsize : size text = octets.length := by rw [← length_bytes, hbytes]
  induction octets using readChunks.induct generalizing text with
  | case1 high low rest hnone =>
    rw [readChunks, hnone, if_neg]
    intro hunread
    have hsome : text ≠ [] := by
      rintro rfl
      simp at hsize
    obtain ⟨first, second, tail, rfl, hpair⟩ := exists_pair hsome hunread
    rw [chunk_of_pair hbytes hpair] at hnone
    contradiction
  | case2 high low rest hex hhex hnone =>
    rw [readChunks, hhex]
    dsimp only
    rw [hnone, if_neg]
    intro hunread
    have hsome : text ≠ [] := by
      rintro rfl
      simp at hsize
    obtain ⟨first, second, tail, rfl, hpair⟩ := exists_pair hsome hunread
    rw [chunk_of_pair hbytes hpair] at hhex
    rw [Option.some.inj hhex, hnone] at hpair
    contradiction
  | case3 high low rest hex hhex value hvalue ih =>
    obtain ⟨first, second, tail, rfl, hpair, htail⟩ := pair_of_chunk hbytes hhex hvalue
    have hrest : size tail = rest.length := by rw [← length_bytes, htail]
    have hlen : (high :: low :: rest).length = rest.length + 2 := rfl
    have hunread : unreadPairs (first :: second :: tail) = unreadPairs tail := by
      rw [unreadPairs, hpair]
      rfl
    rw [readChunks, hhex]
    dsimp only
    rw [hvalue, ih (by omega) htail hrest, hunread, pairValues, hpair]
    dsimp only [Option.getD_some]
    split <;> rfl
  | case4 octets hshort =>
    have hnil : octets = [] := by
      match octets with
      | [] => rfl
      | [_] =>
        rw [hsize] at heven
        contradiction
      | high :: low :: rest => exact absurd rfl (hshort high low rest)
    subst hnil
    obtain rfl := size_eq_zero_iff.1 hsize
    rfl

/-- What the Unicode tables say of `char::to_lowercase`. -/
structure Externals.Lowercases (env : Externals) : Prop where
  ascii : ∀ char : Char, char.toNat < 128 → env.charToLowercase char = [char.toLower]
  wide : ∀ char : Char, 128 ≤ char.toNat → env.charToLowercase char ≠ [] ∧
    ∀ lower ∈ env.charToLowercase char, digit? 16 lower = none

theorem digit?_toLower (hascii : char.toNat < 128) : digit? 16 char.toLower = digit? 16 char := by
  have hall : ∀ code < 128,
      digit? 16 (Char.ofNat code).toLower = digit? 16 (Char.ofNat code) := by decide
  have hchar := hall char.toNat hascii
  rwa [Char.ofNat_toNat] at hchar

section

variable {env : Externals} (hlower : env.Lowercases)

include hlower

theorem hexValue_lower (digits : List Char) :
    hexValue (digits.flatMap env.charToLowercase) = hexValue digits := by
  by_cases hascii : ∀ char ∈ digits, char.toNat < 128
  · induction digits using hexValue.induct with
    | case1 => rfl
    | case2 char =>
      rw [flatMap_singleton, hlower.ascii char (hascii char (by simp))]
      rfl
    | case3 high low rest ih =>
      simp only [forall_mem_cons] at hascii
      obtain ⟨hhigh, hlow, hrest⟩ := hascii
      rw [flatMap_cons, flatMap_cons, hlower.ascii high hhigh, hlower.ascii low hlow]
      simp only [cons_append, nil_append, hexValue, ih hrest,
        digit?_toLower hhigh, digit?_toLower hlow]
  · simp only [not_forall, not_lt] at hascii
    obtain ⟨char, hmem, hwide⟩ := hascii
    have hnone : hexValue digits = none := by
      by_contra hsome
      obtain ⟨decoded, hvalue⟩ := Option.ne_none_iff_exists'.1 hsome
      obtain ⟨digit, hdigit⟩ := (ascii_of_hexValue hvalue).1 char hmem
      have := (digit?_spec hdigit).2.1
      omega
    obtain ⟨hne, hlowers⟩ := hlower.wide char hwide
    obtain ⟨lower, htail⟩ := exists_mem_of_ne_nil _ hne
    rw [hnone]
    by_contra hsome
    obtain ⟨decoded, hvalue⟩ := Option.ne_none_iff_exists'.1 hsome
    obtain ⟨digit, hdigit⟩ := (ascii_of_hexValue hvalue).1 lower (mem_flatMap.2 ⟨char, hmem, htail⟩)
    rw [hlowers lower htail] at hdigit
    contradiction

theorem uuidOf_iff (value : String) (decoded : List UInt8) :
    UuidOf (value.toList.filter (· != '-')) decoded ↔
      hexValue (compactUuid env value).toList = some decoded ∧
        size (compactUuid env value).toList = 32 := by
  rw [UuidOf, compactUuid, toList_ofList, hexValue_lower hlower]
  apply and_congr_right
  intro hvalue
  have hcompact := hvalue
  rw [← hexValue_lower hlower] at hcompact
  rw [size_of_hexValue hcompact, (ascii_of_hexValue hcompact).2, (ascii_of_hexValue hvalue).2]

theorem decodes_vless_iff (value : String) :
    HexDecodes (Vless.parseUuidBytes env value) (UuidOf (value.toList.filter (· != '-'))) ↔
      size (compactUuid env value).toList ≠ 32 ∨ unreadPairs (compactUuid env value).toList ≠ [] ∨
          '+' ∉ (compactUuid env value).toList := by
  have huuid : UuidOf (value.toList.filter (· != '-')) = fun decoded =>
      hexValue (compactUuid env value).toList = some decoded ∧
        size (compactUuid env value).toList = 32 :=
    funext fun decoded => propext (uuidOf_iff hlower value decoded)
  rw [huuid, Vless.parseUuidBytes]
  generalize hcompact : compactUuid env value = compact
  rw [← ofList_toList (s := compact), length_bytes, toList_ofList]
  by_cases hsize : size compact.toList = 32
  · rw [if_neg (by simpa using hsize), readChunks_eq (by omega), HexDecodes, hexValue_eq]
    by_cases hunread : unreadPairs compact.toList = []
    · by_cases hplus : '+' ∈ compact.toList <;> simp [hsize, hunread, hplus]
    · simp [hsize, hunread]
  · rw [if_pos hsize]
    refine iff_of_true (decodes_err ?_ _) (.inl hsize)
    rintro decoded ⟨-, hlen⟩
    exact hsize hlen

end

/-- Every decoder returns what its text denotes, as long as the pairs that it
takes have no plus sign and the first one that it does not take ends between
two characters.  VLESS reads bytes, so nothing is cut there. -/
theorem decoders_strict_iff (env : Externals) (hlower : env.Lowercases) (value : String) :
    (HexDecodes (Vmess.parseUuidBytes value) (UuidOf (value.toList.filter (· != '-'))) ↔
        size (value.toList.filter (· != '-')) ≠ 32 ∨ Sane (value.toList.filter (· != '-'))) ∧
      (HexDecodes (Tuic.parseUuidBytes value) (UuidOf (value.toList.filter (· != '-'))) ↔
        size (value.toList.filter (· != '-')) ≠ 32 ∨ Sane (value.toList.filter (· != '-'))) ∧
      (HexDecodes (Vless.parseUuidBytes env value) (UuidOf (value.toList.filter (· != '-'))) ↔
        size (compactUuid env value).toList ≠ 32 ∨ unreadPairs (compactUuid env value).toList ≠ [] ∨
            '+' ∉ (compactUuid env value).toList) ∧
      (HexDecodes (Reality.decodeHex value) (fun decoded =>
          hexValue (trim value).toList = some decoded) ↔
        size (trim value).toList % 2 ≠ 0 ∨ Sane (trim value).toList) ∧
      (HexDecodes (Reality.decodeShortId value) (ShortIdOf (trim value).toList) ↔
        16 < size (trim value).toList ∨ size (trim value).toList % 2 ≠ 0 ∨
          Sane (trim value).toList) :=
  ⟨decodes_uuid_iff _ _ value, decodes_uuid_iff _ _ value,
    decodes_vless_iff hlower value, decodes_decodeHex_iff value, decodes_decodeShortId_iff value⟩

theorem externals_lowercases : externals.Lowercases where
  ascii _ _ := rfl
  wide char hwide := by
    have hlower : char.toLower = char := by
      refine dif_neg ?_
      rintro ⟨-, hupper⟩
      rw [UInt32.le_iff_toNat_le] at hupper
      change char.toNat ≤ 90 at hupper
      omega
    have hnone : digit? 16 char = none := by
      by_contra hsome
      obtain ⟨digit, hdigit⟩ := Option.ne_none_iff_exists'.1 hsome
      have := (digit?_spec hdigit).2.1
      omega
    simp only [externals, hlower]
    exact ⟨by simp, by simp [hnone]⟩

theorem decoders_strict_iff_sample :
    HexDecodes (Vless.parseUuidBytes externals "0123456789ABCDEF-0123456789abcdef")
      (UuidOf ("0123456789ABCDEF-0123456789abcdef".toList.filter (· != '-'))) :=
  (decoders_strict_iff externals externals_lowercases
    "0123456789ABCDEF-0123456789abcdef").2.2.1.2 (.inr (.inr (by decide +kernel)))

/-- A character of two bytes over the end of the first pair aborts the process,
and sixteen pairs with plus signs are sixteen bytes. -/
theorem decoders_cut_and_take_plus :
    Vmess.parseUuidBytes "0é00000000000000000000000000000" = .panicked ∧
      Tuic.parseUuidBytes "0é00000000000000000000000000000" = .panicked ∧
      Reality.decodeHex "0é0" = .panicked ∧ Reality.decodeShortId "0é0" = .panicked ∧
      Vless.parseUuidBytes externals "+0+1+2+3+4+5+6+7+8+9+a+b+c+d+e+f" =
        .ok [0, 1, 2, 3, 4, 5, 6, 7, 8, 9, 10, 11, 12, 13, 14, 15] ∧
      ¬ UuidOf "+0+1+2+3+4+5+6+7+8+9+a+b+c+d+e+f".toList
        [0, 1, 2, 3, 4, 5, 6, 7, 8, 9, 10, 11, 12, 13, 14, 15] := by
  unfold UuidOf
  decide +kernel

end KeliCore
