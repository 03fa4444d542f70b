/-
Whose replies go where in the UDP relay of a Shadowsocks inbound.  The table
of return paths has one entry for each remote address, so a reply reaches the
client it answers as long as that client is the latest to have sent there.
-/
import KeliCore.UdpFaults

namespace KeliCore

open List

namespace UdpRelay

/-- Two relays with the same return paths and the same history of sends. -/
structure SamePaths (before after : UdpRelay) : Prop where
  remotes : after.remotes = before.remotes
  forwarded : after.forwarded = before.forwarded

theorem SamePaths.refl (relay : UdpRelay) : SamePaths relay relay := ⟨rfl, rfl⟩

variable {first second third : UdpRelay}

theorem SamePaths.trans
    (hfirst : SamePaths first second) (hsecond : SamePaths second third) : SamePaths first third :=
  ⟨hsecond.remotes.trans hfirst.remotes, hsecond.forwarded.trans hfirst.forwarded⟩

/-- Between two relays at most one packet was sent to a remote, and its return
path was filed. -/
def Files (before after : UdpRelay) : Prop :=
  SamePaths before after ∨ ∃ remote context,
    after.remotes = before.remotes.insert remote context ∧
    after.forwarded = (remote, context) :: before.forwarded

theorem Files.of_same (hsame : SamePaths first second) (hfiles : Files second third) :
    Files first third := by
  rcases hfiles with hlater | ⟨remote, context, hremotes, hforwarded⟩
  · exact .inl (hsame.trans hlater)
  · rw [hsame.remotes] at hremotes
    rw [hsame.forwarded] at hforwarded
    exact .inr ⟨remote, context, hremotes, hforwarded⟩

end UdpRelay

namespace ShadowsocksServer

open UdpRelay

variable {server : ShadowsocksServer} {relay : UdpRelay} {turn : UdpTurn}
  {client source : SocketAddr} {request : ShadowsocksUdpRequest} {packet : List UInt8}
  {asker : UdpClientContext} {service : UdpService}

/-- What was done between two relays is all of one kind. -/
def Adds (kind : UdpEffect → Prop) (before after : UdpRelay) : Prop :=
  ∃ effects, after.effects = before.effects ++ effects ∧ ∀ effect ∈ effects, kind effect

namespace Adds

variable {kind : UdpEffect → Prop} {effect : UdpEffect} {first second third : UdpRelay}

theorem of_same (hsame : second.effects = first.effects) : Adds kind first second :=
  ⟨[], by rw [hsame, append_nil], by simp⟩

theorem trans (hfirst : Adds kind first second)
    (hsecond : Adds kind second third) : Adds kind first third := by
  obtain ⟨early, hearly, hfirst⟩ := hfirst
  obtain ⟨late, hlate, hsecond⟩ := hsecond
  refine ⟨early ++ late, by rw [hlate, hearly, append_assoc], ?_⟩
  intro effect heffect
  rcases mem_append.1 heffect with hmem | hmem
  · exact hfirst effect hmem
  · exact hsecond effect hmem

end Adds

section Path

variable {remote : SocketAddr}

end Path

end ShadowsocksServer

open Sample

end KeliCore
