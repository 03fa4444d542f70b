/-
Route decisions: the first rule whose targets match decides, and a source
address is refused by any blocking rule that names it.
-/
import KeliCore.Bytes
import KeliCore.Config

namespace KeliCore

structure SocksTarget where
  host : String
  port : UInt16
deriving DecidableEq

inductive RouteDecision where
  | direct
  | block
  | outbound (config : OutboundConfig)
  | unsupportedOutbound (tag : String)

/-- How the texts of a rule match.  Matching a host name may ask the resolver,
so the answers hold for one decision. -/
structure RouteMatching where
  /-- `route_targets_match` -/
  targets : List String → SocksTarget → String → Bool
  /-- `matches_source_ip_target` -/
  sourceIp : IpAddr → String → Bool
  /-- `protocol_labels` of a network and the first payload -/
  labels : String → List UInt8 → String

namespace RouteMatching

variable (matching : RouteMatching) (routes : List RouteRule)

def decideTarget (target : SocksTarget) (labels : String) : RouteDecision :=
  match routes.find? fun route => matching.targets route.targets target labels with
  | none => .direct
  | some route =>
    match route.action with
    | .direct => .direct
    | .block => .block
    | .outbound tag =>
      match route.outbound with
      | some outbound => .outbound outbound
      | none => .unsupportedOutbound tag

def decideUdp (target : SocksTarget) (payload : List UInt8) : RouteDecision :=
  matching.decideTarget routes target (matching.labels "udp" payload)

def sourceIpBlocked (sourceIp : IpAddr) : Bool :=
  routes.any fun route => route.action == .block && route.targets.any (matching.sourceIp sourceIp)

def ensureSourceIpAllowed (sourceIp : Option IpAddr) : Except IoError Unit :=
  if sourceIp.any (matching.sourceIpBlocked routes) then
    .error ⟨.permissionDenied, "source ip blocked by route"⟩
  else .ok ()

end RouteMatching

end KeliCore
