/-
The configuration a control peer sends, the users it lists, and the code the
core calls but does not contain.  Field names follow the wire format.
-/
import KeliCore.IpAddr

namespace KeliCore

/-- The proxy protocols an inbound can speak. -/
inductive Protocol where
  | shadowsocks
  | vmess
  | vless
  | trojan
  | hysteria2
  | tuic
  | anyTls
  | socks
  | http
  | naive
  | mieru
deriving DecidableEq

structure CoreUser where
  id : UInt64 := 0
  uuid : String
  password : Option String := none
  email : Option String := none
  speedLimit : UInt64 := 0
  deviceLimit : UInt32 := 0
deriving DecidableEq

/-- A change of one inbound's users: a full snapshot, or three lists applied to
the users already there. -/
structure CoreUserDelta where
  added : List CoreUser := []
  updated : List CoreUser := []
  deleted : List String := []
  full : Option (List CoreUser) := none
  baseRevision : Option String := none
  revision : Option String := none

structure CoreUserDeltaResult where
  added : Nat := 0
  updated : Nat := 0
  deleted : Nat := 0
  missingUpdated : Nat := 0
  missingDeleted : Nat := 0
  activeUsers : Nat := 0
  fullApplied : Bool := false
deriving DecidableEq

namespace CoreUser

def credential (user : CoreUser) : String := user.password.getD user.uuid

/-- `CoreUser::is_empty`: such a user is never put in a table. -/
def isEmpty (user : CoreUser) : Bool := Text.isBlank user.uuid

end CoreUser

structure DnsServerConfig where
  address : String
  domains : List String := []
deriving DecidableEq

structure DnsConfig where
  servers : List DnsServerConfig := []
  queryStrategy : String := ""
  blockPrivateIps : Bool := false
  privateIpAllowlist : List String := []
deriving DecidableEq

structure OutboundTlsConfig where
  serverName : String := ""
  allowInsecure : Bool := false
  alpn : List String := []
deriving DecidableEq

/-- The headers are a sorted map in the source; here its entries in order. -/
structure OutboundTransportConfig where
  network : String := ""
  path : Option String := none
  host : Option String := none
  serviceName : Option String := none
  method : Option String := none
  headers : List (String × String) := []
  quicSecurity : Option String := none
  quicKey : Option String := none
  quicHeaderType : Option String := none
deriving DecidableEq

structure OutboundConfig where
  tag : String
  protocol : String
  method : Option String := none
  alterId : Option UInt16 := none
  address : Option String := none
  port : Option UInt16 := none
  username : Option String := none
  password : Option String := none
  tls : Option OutboundTlsConfig := none
  transport : Option OutboundTransportConfig := none
deriving DecidableEq

inductive RouteAction where
  | direct
  | block
  | outbound (tag : String)
deriving DecidableEq

structure RouteRule where
  targets : List String
  action : RouteAction
  outbound : Option OutboundConfig := none
deriving DecidableEq

structure TransportConfig where
  network : String := "tcp"
  path : Option String := none
  host : Option String := none
  serviceName : Option String := none
  proxyProtocol : Bool := false
  upMbps : UInt32 := 0
  downMbps : UInt32 := 0
  ignoreClientBandwidth : Bool := false
  obfs : Option String := none
  obfsPassword : Option String := none
  congestionControl : String := ""
  zeroRttHandshake : Bool := false
deriving DecidableEq

structure RealityConfig where
  dest : String
  serverPort : Option UInt16
  privateKey : String
  shortId : String
  xver : UInt32
  mldsa65Seed : Option String
deriving DecidableEq

structure TlsConfig where
  serverName : String
  certFile : Option String
  keyFile : Option String
  alpn : List String
  rejectUnknownSni : Bool
  reality : Option RealityConfig
deriving DecidableEq

structure SniffingConfig where
  enabled : Bool := true
  destOverride : List String := ["http", "tls"]
deriving DecidableEq

structure PolicyConfig where
  handshakeSecs : UInt64 := 60
  connectionIdleSecs : UInt64 := 300
  uplinkOnlySecs : UInt64 := 1
  downlinkOnlySecs : UInt64 := 1
  bufferSizeKib : UInt64 := 128
  sniffingCacheMillis : UInt64 := 200
  connectTimeoutSecs : UInt64 := 15
deriving DecidableEq

structure StatsConfig where
  enabled : Bool := true
  perUser : Bool := true
deriving DecidableEq

structure InboundConfig where
  tag : String
  protocol : Protocol
  listen : String
  port : UInt16
  users : List CoreUser
  cipher : Option String := none
  flow : String := ""
  paddingScheme : List String := []
  transport : TransportConfig := {}
  tls : Option TlsConfig := none
  sniffing : SniffingConfig := {}
  routes : List RouteRule := []

structure CoreConfig where
  instanceId : String
  logLevel : String
  dns : DnsConfig := {}
  policy : PolicyConfig := {}
  inbounds : List InboundConfig
  outbounds : List OutboundConfig
  routes : List RouteRule
  stats : StatsConfig := {}

/-- The functions of other crates and of the process environment that the core
calls.  They do not change while the process runs; what does change between
two commands is a `World`. -/
structure Externals where
  /-- `regex::Regex::new(..).is_ok()` -/
  regexCompiles : String → Bool
  /-- `HeaderName::from_bytes(..).is_ok()` -/
  headerNameValid : String → Bool
  /-- `HeaderValue::from_str(..).is_ok()` -/
  headerValueValid : String → Bool
  /-- `URL_SAFE_NO_PAD.decode` of the `base64` crate -/
  base64UrlSafeNoPad : String → Option (List UInt8)
  /-- `STANDARD.decode` of the `base64` crate -/
  base64Standard : String → Option (List UInt8)
  charToLowercase : Char → List Char
  sha224 : List UInt8 → List UInt8
  sha256 : List UInt8 → List UInt8
  /-- `DefaultHasher` fed with a user's six fields in declaration order -/
  defaultHasher : UInt64 → String → Option String → Option String → UInt64 → UInt32 → UInt64
  serdeJsonToVec : CoreConfig → List UInt8
  /-- `KELI_CORE_OUTBOUND_CONNECT_TIMEOUT_SECS` -/
  outboundConnectTimeoutSecs : Option String

namespace CoreConfig

/-- Fill in the outbound a route names by tag only. -/
def resolveRoute (config : CoreConfig) (route : RouteRule) : RouteRule :=
  match route.outbound, route.action with
  | none, .outbound tag =>
    { route with
      outbound := config.outbounds.find? fun outbound => outbound.tag == tag }
  | _, _ => route

def resolvedInboundRoutes (config : CoreConfig) (inbound : InboundConfig) : List RouteRule :=
  (config.routes ++ inbound.routes).map config.resolveRoute

end CoreConfig

end KeliCore
