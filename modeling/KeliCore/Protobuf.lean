/-
The wire format of protobuf messages: varints of at most ten bytes, and
records of a key and a payload.  Groups are left out.
-/
import Mathlib.Data.UInt
import Mathlib.Tactic.Positivity
import Mathlib.Tactic.Ring

namespace Protobuf

/-- The number in groups of seven bits, the lowest first. -/
def groups : List UInt8 → Nat
  | [] => 0
  | octet :: octets => octet.toNat % 128 + 128 * groups octets

/-- The last byte, and no other, is without the continuation bit. -/
def Delimited : List UInt8 → Prop
  | [] => False
  | [octet] => octet.toNat < 128
  | octet :: octets => 128 ≤ octet.toNat ∧ Delimited octets

structure Varint (octets : List UInt8) (value : Nat) : Prop where
  delimited : Delimited octets
  short : octets.length ≤ 10
  value_eq : value = groups octets % 2 ^ 64

inductive Payload where
  | varint (value : Nat)
  | fixed64 (octets : List UInt8)
  | bytes (data : List UInt8)
  | fixed32 (octets : List UInt8)

def Payload.wireType : Payload → Nat
  | varint _ => 0
  | fixed64 _ => 1
  | bytes _ => 2
  | fixed32 _ => 5

inductive Payload.Encodes : List UInt8 → Payload → Prop where
  | varint {octets : List UInt8} {value : Nat} (hvalue : Varint octets value) :
      Encodes octets (.varint value)
  | fixed64 {octets : List UInt8} (hlen : octets.length = 8) : Encodes octets (.fixed64 octets)
  | bytes {octets data : List UInt8} (hlen : Varint octets data.length) :
      Encodes (octets ++ data) (.bytes data)
  | fixed32 {octets : List UInt8} (hlen : octets.length = 4) : Encodes octets (.fixed32 octets)

structure Record where
  number : Nat
  payload : Payload

/-- The numbers a field can have. -/
def Legal (number : Nat) : Prop := 1 ≤ number ∧ number < 2 ^ 29

/-- The bytes are a well-formed message of these records. -/
inductive Message : List UInt8 → List Record → Prop where
  | nil : Message [] []
  | cons {key octets rest : List UInt8} {record : Record}
      {records : List Record} (hlegal : Legal record.number)
      (hkey : Varint key (record.number * 8 + record.payload.wireType))
      (hpayload : record.payload.Encodes octets) (hrest : Message rest records) :
      Message (key ++ (octets ++ rest)) (record :: records)

def Record.bytesOf (number : Nat) : Record → Option (List UInt8)
  | ⟨own, .bytes data⟩ => if own = number then some data else none
  | _ => none

def lastBytes (number : Nat) : List Record → Option (List UInt8)
  | [] => none
  | record :: records => (lastBytes number records).or (record.bytesOf number)

variable {octets : List UInt8}

theorem Delimited.ne_nil (hoctets : Delimited octets) : octets ≠ [] := by
  rintro rfl
  exact hoctets

theorem delimited_cons {octet : UInt8} : Delimited (octet :: octets) ↔
      (octet.toNat < 128 ∧ octets = []) ∨ (128 ≤ octet.toNat ∧ Delimited octets) := by
  cases octets with
  | nil | cons next octets => simp [Delimited]

theorem toNat_or_group {shift : Nat} {value : UInt64}
    (hvalue : value.toNat < 2 ^ shift) (hshift : shift < 64) (octet : UInt8) :
    (value ||| ((octet &&& 0x7f).toUInt64 <<< UInt64.ofNat shift)).toNat =
      (value.toNat + 2 ^ shift * (octet.toNat % 128)) % 2 ^ 64 := by
  have hgroup : (octet &&& 0x7f).toUInt64.toNat = octet.toNat % 128 := by
    rw [UInt8.toNat_toUInt64, UInt8.toNat_and]
    exact Nat.and_two_pow_sub_one_eq_mod _ 7
  have hamount : (UInt64.ofNat shift).toNat % 64 = shift := by
    rw [UInt64.toNat_ofNat_of_lt' (by simp [UInt64.size]; omega)]
    omega
  have hpower : 2 ^ 64 = 2 ^ shift * 2 ^ (64 - shift) := by
    rw [← pow_add]
    congr 1
    omega
  rw [UInt64.toNat_or, UInt64.toNat_shiftLeft, hamount, hgroup,
    Nat.shiftLeft_eq, Nat.mul_comm (octet.toNat % 128), hpower, Nat.mul_mod_mul_left, Nat.or_comm,
    ← Nat.two_pow_add_eq_or_of_lt hvalue, Nat.mod_mul,
    Nat.add_mul_mod_self_left, Nat.mod_eq_of_lt hvalue,
    Nat.add_mul_div_left _ _ (by positivity), Nat.div_eq_of_lt hvalue, Nat.zero_add, Nat.add_comm]

end Protobuf
