/-
The string operations of the Rust standard library that the core uses, on
Unicode scalar values.  `str::trim` strips the `White_Space` property and
`to_ascii_lowercase` leaves every non-ASCII character alone.
-/
import Mathlib.Algebra.Group.Nat.Defs
import Mathlib.Data.List.Basic

namespace Text

/-- `char::is_whitespace`: the Unicode `White_Space` property. -/
def isWhitespace (c : Char) : Bool :=
  let n := c.toNat
  (9 ≤ n && n ≤ 13) || n == 0x20 || n == 0x85 || n == 0xA0 || n == 0x1680 ||
    (0x2000 ≤ n && n ≤ 0x200A) || n == 0x2028 || n == 0x2029 ||
    n == 0x202F || n == 0x205F || n == 0x3000

/-- Drop matching characters at both ends. -/
def trimMatchesList (p : Char → Bool) (cs : List Char) : List Char :=
  ((cs.dropWhile p).reverse.dropWhile p).reverse

def trimMatches (p : Char → Bool) (s : String) : String :=
  String.ofList (trimMatchesList p s.toList)

def trimStartMatches (p : Char → Bool) (s : String) : String :=
  String.ofList (s.toList.dropWhile p)

def trim (s : String) : String := trimMatches isWhitespace s

/-- `s.trim().is_empty()`, the check the configuration makes everywhere. -/
def isBlank (s : String) : Bool := (trim s).isEmpty

def toAsciiLowercase (s : String) : String :=
  String.ofList (s.toList.map Char.toLower)

def eqIgnoreAsciiCase (left right : String) : Bool :=
  toAsciiLowercase left == toAsciiLowercase right

/-- Remove the leading characters of `pre`, when they are there. -/
def stripLead : List Char → List Char → Option (List Char)
  | [], rest => some rest
  | _ :: _, [] => none
  | p :: pre, c :: rest => if p = c then stripLead pre rest else none

def stripPrefix (s pre : String) : Option String :=
  (stripLead pre.toList s.toList).map String.ofList

def startsWith (s pre : String) : Bool := (stripPrefix s pre).isSome

def endsWith (s suffix : String) : Bool :=
  (stripLead suffix.toList.reverse s.toList.reverse).isSome

/-- Split a character list at every separator. -/
def splitList (sep : Char) : List Char → List (List Char)
  | [] => [[]]
  | c :: rest =>
    if c = sep then [] :: splitList sep rest
    else
      match splitList sep rest with
      | [] => [[c]]
      | first :: others => (c :: first) :: others

/-- `str::split` with a character. -/
def split (sep : Char) (s : String) : List String :=
  (splitList sep s.toList).map String.ofList

/-- Split at the first separator. -/
def splitOnceList (sep : Char) : List Char → Option (List Char × List Char)
  | [] => none
  | c :: rest =>
    if c = sep then some ([], rest)
    else (splitOnceList sep rest).map fun parts => (c :: parts.1, parts.2)

def splitOnce (sep : Char) (s : String) : Option (String × String) :=
  (splitOnceList sep s.toList).map fun parts => (String.ofList parts.1, String.ofList parts.2)

def rsplitOnce (sep : Char) (s : String) : Option (String × String) :=
  (splitOnceList sep s.toList.reverse).map fun parts =>
    (String.ofList parts.2.reverse, String.ofList parts.1.reverse)

/-- `str::replace` of single characters by one character. -/
def replaceChars (p : Char → Bool) (by_ : Char) (s : String) : String :=
  String.ofList (s.toList.map fun c => if p c then by_ else c)

def digit? (radix : Nat) (c : Char) : Option Nat :=
  let n := c.toNat
  let value :=
    if '0'.toNat ≤ n && n ≤ '9'.toNat then some (n - '0'.toNat)
    else if 'a'.toNat ≤ n && n ≤ 'f'.toNat then some (n - 'a'.toNat + 10)
    else if 'A'.toNat ≤ n && n ≤ 'F'.toNat then some (n - 'A'.toNat + 10)
    else none
  value.filter (· < radix)

/-- Accumulate digits, failing on a foreign character or past `limit`. -/
def digits? (radix limit : Nat) : Nat → List Char → Option Nat
  | acc, [] => some acc
  | acc, c :: rest =>
    match digit? radix c with
    | none => none
    | some d =>
      let next := acc * radix + d
      if limit < next then none else digits? radix limit next rest

/-- `from_str_radix` of an unsigned type whose largest value is `limit`: an
optional plus sign and at least one digit. -/
def fromStrRadix (radix limit : Nat) (s : String) : Option Nat :=
  match s.toList with
  | [] => none
  | ['+'] => none
  | '+' :: rest => digits? radix limit 0 rest
  | cs => digits? radix limit 0 cs

/-- The UTF-8 bytes of a string, `str::as_bytes`. -/
def bytes (s : String) : List UInt8 :=
  s.toList.flatMap String.utf8EncodeChar

/-- Two characters at a time read as hexadecimal bytes.  A pair may be a plus
sign and one digit, as `u8::from_str_radix` allows. -/
def hexPairs : List UInt8 → Option (List UInt8)
  | [] => some []
  | [_] => none
  | high :: low :: rest => do
      let value ← fromStrRadix 16 255 (String.ofList [Char.ofNat high.toNat, Char.ofNat low.toNat])
      let tail ← hexPairs rest
      some (UInt8.ofNat value :: tail)

def parseU8 (s : String) : Option Nat := fromStrRadix 10 255 s

def parseU16 (s : String) : Option Nat := fromStrRadix 10 65535 s

def parseU64 (s : String) : Option Nat := fromStrRadix 10 (2 ^ 64 - 1) s

end Text
