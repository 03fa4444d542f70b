/-
The traffic registry: bytes per node and user since the last drain.  Additions
saturate at the largest 64-bit count.
-/
import KeliCore.HashMap
import Mathlib.Data.String.Basic
import Mathlib.Data.Prod.Lex

namespace KeliCore

/-- Node tag and user uuid, ordered the way drained records are sorted. -/
abbrev TrafficKey := String ×ₗ String

def trafficKey (nodeTag userUuid : String) : TrafficKey :=
  toLex (nodeTag, userUuid)

inductive Direction where
  | upload
  | download
deriving DecidableEq

structure TrafficDelta where
  nodeTag : String
  userUuid : String
  userId : Option UInt64 := none
  upload : UInt64
  download : UInt64
  onlineIps : List String := []
deriving DecidableEq

namespace TrafficDelta

def key (delta : TrafficDelta) : TrafficKey :=
  trafficKey delta.nodeTag delta.userUuid

end TrafficDelta

def u64Max : Nat := 2 ^ 64 - 1

def saturatingAdd (left right : UInt64) : UInt64 :=
  .ofNat (min (left.toNat + right.toNat) (2 ^ 64 - 1))

theorem toNat_saturatingAdd {left right : UInt64} (hbound : left.toNat + right.toNat < 2 ^ 64) :
    (saturatingAdd left right).toNat = left.toNat + right.toNat := by
  have hmin : min (left.toNat + right.toNat) (2 ^ 64 - 1) = left.toNat + right.toNat := by omega
  rw [saturatingAdd, hmin]
  exact UInt64.toNat_ofNat_of_lt hbound

abbrev TrafficRegistry := HashMap TrafficKey TrafficDelta

/-- Append the addresses not yet listed, then sort. -/
def mergeIps (known new : List String) : List String :=
  (new.foldl (fun ips ip => if ip ∈ ips then ips else ips ++ [ip])
    known).insertionSort (· ≤ ·)

/-- `TrafficRegistry::add_delta`; `add_with_user_id` is the same addition with
at most one address. -/
def addDelta (registry : TrafficRegistry) (delta : TrafficDelta) :
    TrafficRegistry :=
  let entry := (registry.lookup delta.key).getD
    { nodeTag := delta.nodeTag, userUuid := delta.userUuid,
      userId := delta.userId, upload := 0, download := 0 }
  registry.insert delta.key
    { entry with
      userId := entry.userId.or delta.userId
      upload := saturatingAdd entry.upload delta.upload
      download := saturatingAdd entry.download delta.download
      onlineIps := mergeIps entry.onlineIps delta.onlineIps }

def addDeltas (registry : TrafficRegistry) (records : List TrafficDelta) :
    TrafficRegistry :=
  records.foldl addDelta registry

/-- The entries that reach the threshold of a drain. -/
def isDue (minimumBytes : UInt64) (delta : TrafficDelta) : Bool :=
  minimumBytes ≤ saturatingAdd delta.upload delta.download

/-- `drain_minimum`: what is left, and what is handed out in key order. -/
def drainMinimum (registry : TrafficRegistry) (minimumBytes : UInt64) :
    TrafficRegistry × List TrafficDelta :=
  let due := registry.retain fun _ delta => isDue minimumBytes delta
  (registry.retain fun _ delta => !isDue minimumBytes delta, due.sortedKeys.filterMap due.lookup)

end KeliCore
