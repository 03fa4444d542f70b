/-
One question to one DNS server: the query as it is written, the response as it
is read, and the socket that takes the first datagram to arrive, whoever has
sent it.
-/
import KeliCore.Bytes
import KeliCore.Config

namespace KeliCore

open Text List

structure Datagram where
  source : SocketAddr
  bytes : List UInt8

namespace DnsNetwork

variable (network : DnsNetwork)

end DnsNetwork

/-- The datagram is the asked server's, with the id and the question of the
query. -/
def Datagram.Answers (datagram : Datagram) (serverAddr : SocketAddr) (query : List UInt8) : Prop :=
  datagram.source = serverAddr ∧ datagram.bytes.take 2 = query.take 2 ∧
    (datagram.bytes.drop 4).take 2 = (query.drop 4).take 2 ∧
    query.drop 12 <+: datagram.bytes.drop 12

instance (datagram : Datagram) (serverAddr : SocketAddr) (query : List UInt8) :
    Decidable (datagram.Answers serverAddr query) :=
  inferInstanceAs (Decidable (_ ∧ _ ∧ _ ∧ _))

variable {input : List UInt8} {qtype queryId : UInt16} {ips : List IpAddr}
  {turns cursor offset count : Nat} {jumped : Bool}

section Failures

/-- A computation that does not fail as a socket without a datagram does. -/
def Reads {α : Type} (result : Except IoError α) : Prop := result ≠ .error wouldBlock

theorem Reads.bind {α β : Type} {first : Except IoError α} {next : α → Except IoError β}
    (hfirst : Reads first) (hnext : ∀ found, Reads (next found)) : Reads (first >>= next) := by
  cases first with
  | error error => exact fun hblocks => hfirst (congrArg Except.error (Except.error.inj hblocks))
  | ok found => exact hnext found

end Failures

namespace Sample

def asked : SocketAddr := ⟨.v4 0x09090909, 53⟩

end Sample

open Sample

end KeliCore
