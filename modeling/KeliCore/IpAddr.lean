/-
IP addresses, socket addresses and the standard library's textual form of an
address.  The parser follows `core::net`: decimal octets without leading zeros,
hexadecimal groups, at most one `::`, and an IPv4 tail in an IPv6 address.
-/
import KeliCore.Text
import Mathlib.Order.Nat

inductive IpAddr where
  | v4 (bits : BitVec 32)
  | v6 (bits : BitVec 128)
deriving DecidableEq

structure SocketAddr where
  ip : IpAddr
  port : UInt16
deriving DecidableEq

namespace IpAddr

open Text

/-- A number for each address, IPv4 before IPv6. -/
def toNat : IpAddr → Nat
  | v4 bits => bits.toNat
  | v6 bits => 2 ^ 32 + bits.toNat

theorem toNat_injective : Function.Injective toNat := by
  intro left right heq
  cases left with
  | v4 left =>
    cases right with
    | v4 right => exact congrArg v4 (BitVec.eq_of_toNat_eq heq)
    | v6 right =>
      have hlt := left.isLt
      simp only [toNat] at heq
      omega
  | v6 left =>
    cases right with
    | v4 right =>
      have hlt := right.isLt
      simp only [toNat] at heq
      omega
    | v6 right =>
      simp only [toNat] at heq
      exact congrArg v6 (BitVec.eq_of_toNat_eq (by omega))

instance : LinearOrder IpAddr := LinearOrder.lift' toNat toNat_injective

def isUnspecified : IpAddr → Bool
  | v4 bits => bits == 0
  | v6 bits => bits == 0

/-- Where a connection goes: to the IPv4 address in an IPv4-mapped one. -/
def destination : IpAddr → IpAddr
  | v4 bits => v4 bits
  | v6 bits => if bits.toNat / 2 ^ 32 = 0xffff then v4 (bits.setWidth 32) else v6 bits

/-- `Parser::read_number`: as many digits as there are, up to `maxDigits`.
The result carries the digit count and the unread characters. -/
def readDigits (radix limit maxDigits : Nat) :
    Nat → Nat → List Char → Option (Nat × Nat × List Char)
  | acc, count, [] => some (acc, count, [])
  | acc, count, c :: rest =>
    match digit? radix c with
    | none => some (acc, count, c :: rest)
    | some d =>
      let next := acc * radix + d
      if limit < next ∨ maxDigits < count + 1 then none
      else readDigits radix limit maxDigits next (count + 1) rest

def readNumber (radix limit maxDigits : Nat) (allowZeroPrefix : Bool)
    (cs : List Char) : Option (Nat × List Char) :=
  match readDigits radix limit maxDigits 0 0 cs with
  | none => none
  | some (value, count, rest) =>
    if count = 0 then none
    else if !allowZeroPrefix && cs.head? == some '0' && 1 < count then none
    else some (value, rest)

/-- Every item but the first is preceded by the separator. -/
def readSeparator (sep : Char) (index : Nat) (cs : List Char) : Option (List Char) :=
  if index = 0 then some cs
  else
    match cs with
    | c :: rest => if c = sep then some rest else none
    | [] => none

/-- Four octets, most significant first. -/
def readIpv4 (cs : List Char) : Option (Nat × List Char) :=
  (List.range 4).foldl (fun state index => do
      let (acc, rest) ← state
      let rest ← readSeparator '.' index rest
      let (octet, rest) ← readNumber 10 255 3 false rest
      some (acc * 256 + octet, rest))
    (some (0, cs))

/-- `read_groups`: the groups read so far, whether an IPv4 tail ended them,
and the unread characters. -/
def readGroups (limit : Nat) : Nat → List Nat → List Char → List Nat × Bool × List Char
  | 0, groups, cs => (groups, false, cs)
  | fuel + 1, groups, cs =>
    let index := groups.length
    let embedded :=
      if index + 1 < limit then
        (readSeparator ':' index cs).bind readIpv4
      else none
    match embedded with
    | some (bits, rest) => (groups ++ [bits / 65536, bits % 65536], true, rest)
    | none =>
      match (readSeparator ':' index cs).bind (readNumber 16 65535 4 true) with
      | some (group, rest) => readGroups limit fuel (groups ++ [group]) rest
      | none => (groups, false, cs)

/-- Eight groups as one number. -/
def joinGroups (groups : List Nat) : Nat :=
  groups.foldl (fun acc group => acc * 65536 + group) 0

def readIpv6 (cs : List Char) : Option (Nat × List Char) :=
  match readGroups 8 8 [] cs with
  | (head, headV4, rest) =>
    if head.length = 8 then some (joinGroups head, rest)
    -- An IPv4 part is not allowed before `::`.
    else if headV4 then none
    else
      match rest with
      | ':' :: ':' :: rest =>
        let limit := 8 - (head.length + 1)
        match readGroups limit limit [] rest with
        | (tail, _, rest) =>
          let zeros := List.replicate (8 - head.length - tail.length) 0
          some (joinGroups (head ++ zeros ++ tail), rest)
      | _ => none

/-- `str::parse::<IpAddr>`. -/
def parse (s : String) : Option IpAddr :=
  match readIpv4 s.toList with
  | some (bits, []) => some (v4 (BitVec.ofNat 32 bits))
  | _ =>
    match readIpv6 s.toList with
    | some (bits, []) => some (v6 (BitVec.ofNat 128 bits))
    | _ => none

/-- The octets of an IPv4 address. -/
def dotted (bits : Nat) : String :=
  ".".intercalate ([24, 16, 8, 0].map fun shift => Nat.repr (bits / 2 ^ shift % 256))

def hexText (value : Nat) : String := String.ofList (Nat.toDigits 16 value)

/-- Where the first longest run of zero groups starts, and its length. -/
def longestZeroRun (groups : List Nat) : Nat × Nat :=
  (List.range 8).foldl (fun best start =>
      let length := ((groups.drop start).takeWhile (· == 0)).length
      if best.2 < length then (start, length) else best)
    (0, 0)

/-- `Display` of an IPv6 address: an IPv4-mapped address ends in dotted form,
and the longest run of at least two zero groups is written `::`. -/
def ipv6Text (bits : Nat) : String :=
  let groups := (List.range 8).map fun index => bits / 2 ^ (112 - 16 * index) % 65536
  let text (groups : List Nat) : String := ":".intercalate (groups.map hexText)
  if bits / 2 ^ 32 = 0xffff then "::ffff:" ++ dotted (bits % 2 ^ 32)
  else
    let run := longestZeroRun groups
    if 1 < run.2 then
      text (groups.take run.1) ++ "::" ++ text (groups.drop (run.1 + run.2))
    else text groups

def display : IpAddr → String
  | v4 bits => dotted bits.toNat
  | v6 bits => ipv6Text bits.toNat

example : parse "127.0.0.1" = some (v4 0x7f000001#32) := by decide

example : parse "01.2.3.4" = none := by decide

example : parse "::ffff:1.2.3.4" = some (v6 0xffff01020304#128) := by decide

end IpAddr

def SocketAddr.display (addr : SocketAddr) : String :=
  match addr.ip with
  | .v4 _ => addr.ip.display ++ ":" ++ Nat.repr addr.port.toNat
  | .v6 _ => "[" ++ addr.ip.display ++ "]:" ++ Nat.repr addr.port.toNat
