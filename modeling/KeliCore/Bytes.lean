/-
What the byte readers of the transports share: slices of the running process
and the errors of `std::io`.
-/
import Mathlib.Data.UInt
import Mathlib.Tactic.Ring

namespace KeliCore

/-- A byte slice of the running process.  Rust keeps the length of every
slice below 2^63. -/
structure Slice where
  bytes : List UInt8
  fits : bytes.length < 2 ^ 63

/-- The members of `std::io::ErrorKind` the readers, writers and listeners
meet; `other` stands for the rest. -/
inductive ErrorKind where
  | unexpectedEof
  | invalidData
  | invalidInput
  | unsupported
  | wouldBlock
  | permissionDenied
  | interrupted
  | timedOut
  | writeZero
  | connectionReset
  | connectionAborted
  | brokenPipe
  | other
deriving DecidableEq

/-- `std::io::Error` as the readers make it. -/
structure IoError where
  kind : ErrorKind
  message : String
deriving DecidableEq

/-- The error of a read that finds nothing yet; its text is the system's. -/
def wouldBlock : IoError where
  kind := .wouldBlock
  message := ""

def IoError.isWouldBlock (error : IoError) : Bool :=
  error.kind == .wouldBlock

theorem bind_eq_ok {ε α β : Type} {first : Except ε α} {next : α → Except ε β} {value : β} :
    first >>= next = .ok value ↔ ∃ found, first = .ok found ∧ next found = .ok value := by
  cases first with
  | error error | ok found => simp [bind, Except.bind]

def toBeBytes (value : UInt16) : List UInt8 :=
  [.ofNat (value.toNat / 256), .ofNat (value.toNat % 256)]

def fromBeBytes (high low : UInt8) : UInt16 :=
  .ofNat (high.toNat * 256 + low.toNat)

theorem fromBeBytes_toBeBytes (value : UInt16) :
    fromBeBytes (.ofNat (value.toNat / 256)) (.ofNat (value.toNat % 256)) = value := by
  have hvalue : value.toNat < 65536 := value.toNat_lt
  apply UInt16.toNat_inj.1
  simp only [fromBeBytes, UInt8.toNat_ofNat', UInt16.toNat_ofNat']
  omega

/-- The number the bytes write, highest first. -/
def beNat (bytes : List UInt8) : Nat :=
  bytes.foldl (fun value byte => value * 256 + byte.toNat) 0

/-- The last bytes of a number, highest first. -/
def beOctets : Nat → Nat → List UInt8
  | 0, _ => []
  | count + 1, value => .ofNat (value / 256 ^ count) :: beOctets count value

theorem length_beOctets (count value : Nat) : (beOctets count value).length = count := by
  induction count with
  | zero => rfl
  | succ count ih => rw [beOctets, List.length_cons, ih]

theorem foldl_beOctets (count value before : Nat) :
    (beOctets count value).foldl (fun value byte => value * 256 + byte.toNat)
      before = before * 256 ^ count + value % 256 ^ count := by
  induction count generalizing before with
  | zero => simp [beOctets, Nat.mod_one]
  | succ count ih =>
    have hmod : value % 256 ^ (count + 1) =
        value % 256 ^ count + 256 ^ count * (value / 256 ^ count % 256) := by
      rw [Nat.pow_succ, Nat.mod_mul]
    rw [beOctets, List.foldl_cons, ih, UInt8.toNat_ofNat', hmod]
    ring

theorem beNat_beOctets {value count : Nat}
    (hvalue : value < 256 ^ count) : beNat (beOctets count value) = value := by
  rw [beNat, foldl_beOctets, Nat.zero_mul, Nat.zero_add, Nat.mod_eq_of_lt hvalue]

end KeliCore
