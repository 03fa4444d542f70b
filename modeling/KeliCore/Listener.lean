/-
One listener: what it is set up with, the routes and users it serves, and the
accept thread behind it.  Binding sockets is the operating system's business,
so whether a start succeeds is read off the `World`.
-/
import KeliCore.Limits
import KeliCore.Validate

namespace KeliCore

open Text

/-! ### What a listener is set up with

Each `start_*_listener` copies some fields of its inbound and some timeouts of
the policy into the thread it starts.  `ListenerSetup` is that copy. -/

/-- Timeouts in seconds, the sniffing cache in milliseconds. -/
structure Timeouts where
  connect : Nat
  connectionIdle : Nat
  uplinkOnly : Nat
  downlinkOnly : Nat
  sniffingCache : Nat

def outboundConnectTimeoutFromEnv (value : Option String) (defaultSecs : UInt64) : Nat :=
  let clamp (seconds : Nat) : Nat := max 1 (min seconds 60)
  match (value.bind fun text => parseU64 (trim text)).filter (0 < ·) with
  | some seconds => clamp seconds
  | none => clamp defaultSecs.toNat

def policyTimeouts (env : Externals) (policy : PolicyConfig) : Timeouts where
  connect := outboundConnectTimeoutFromEnv env.outboundConnectTimeoutSecs policy.connectTimeoutSecs
  connectionIdle := max policy.connectionIdleSecs.toNat 1
  uplinkOnly := max policy.uplinkOnlySecs.toNat 1
  downlinkOnly := max policy.downlinkOnlySecs.toNat 1
  sniffingCache := max policy.sniffingCacheMillis.toNat 1

/-- The certificate settings a TLS acceptor is built from. -/
structure TlsSetup where
  certFile : String
  keyFile : String
  serverName : String
  alpn : List String
  rejectUnknownSni : Bool
  reality : Option RealityConfig

def tlsSetup (tls : TlsConfig) : TlsSetup where
  certFile := tls.certFile.getD ""
  keyFile := tls.keyFile.getD ""
  serverName := tls.serverName
  alpn := tls.alpn
  rejectUnknownSni := tls.rejectUnknownSni
  reality := tls.reality

/-- The stream transports of `vless`, `vmess` and `trojan`. -/
structure StreamSetup where
  network : String
  path : Option String
  host : Option String
  serviceName : String
  tls : Option TlsSetup

def streamSetup (inbound : InboundConfig) : StreamSetup where
  network := trim inbound.transport.network
  path := inbound.transport.path
  host := inbound.transport.host
  serviceName := inbound.transport.serviceName.getD "GunService"
  tls := inbound.tls.map tlsSetup

structure Hysteria2ObfsConfig where
  kind : String
  password : String

def hysteria2ObfsConfig (transport : TransportConfig) : Option Hysteria2ObfsConfig :=
  let kind := trim (transport.obfs.getD "")
  let password := trim (transport.obfsPassword.getD "")
  if kind.isEmpty && password.isEmpty then none else some { kind, password }

def naiveUsesQuic (inbound : InboundConfig) : Bool :=
  inbound.protocol == .naive && naiveH3 inbound

def inboundBindsQuic (inbound : InboundConfig) : Bool :=
  inbound.protocol == .hysteria2 || inbound.protocol == .tuic || naiveUsesQuic inbound

def shadowsocksUdpEnabled (transport : TransportConfig) : Bool :=
  (split ',' transport.network).any fun item => eqIgnoreAsciiCase (trim item) "udp"

inductive ListenerSetup where
  | plain (connect : Nat)
  | vless (flow : String) (timeouts : Timeouts) (stream : StreamSetup)
  | vmess (connect : Nat) (stream : StreamSetup)
  | trojan (sniffing : SniffingConfig) (timeouts : Timeouts) (stream : StreamSetup)
  | shadowsocks (method : String) (connect : Nat) (udp : Bool)
  | anyTls (connect : Nat) (paddingScheme : List String) (tls : Option TlsSetup)
  | tuic (connect : Nat) (tls : Option TlsSetup) (congestionControl : String)
  | hysteria2 (connect : Nat) (tls : Option TlsSetup) (upMbps downMbps : UInt32)
      (ignoreClientBandwidth : Bool) (congestionControl : String)
      (obfs : Option Hysteria2ObfsConfig)
  | naive (connect : Nat) (tls : Option TlsSetup) (quic : Bool)

/-- The settings `start_listener_handle` hands to the protocol's server. -/
def listenerSetup (env : Externals) (policy : PolicyConfig)
    (inbound : InboundConfig) : ListenerSetup :=
  let timeouts := policyTimeouts env policy
  let transport := inbound.transport
  let tls := inbound.tls.map tlsSetup
  match inbound.protocol with
  | .socks | .http | .mieru => .plain timeouts.connect
  | .vless =>
    -- VLESS has no sniffing, so the cache timeout is not passed on.
    .vless inbound.flow { timeouts with sniffingCache := 0 } (streamSetup inbound)
  | .vmess => .vmess timeouts.connect (streamSetup inbound)
  | .trojan => .trojan inbound.sniffing timeouts (streamSetup inbound)
  | .shadowsocks =>
    .shadowsocks (inbound.cipher.getD "") timeouts.connect (shadowsocksUdpEnabled transport)
  | .anyTls => .anyTls timeouts.connect inbound.paddingScheme tls
  | .tuic => .tuic timeouts.connect tls transport.congestionControl
  | .hysteria2 =>
    .hysteria2 timeouts.connect tls transport.upMbps transport.downMbps
      transport.ignoreClientBandwidth transport.congestionControl (hysteria2ObfsConfig transport)
  | .naive => .naive timeouts.connect tls (naiveUsesQuic inbound)

/-- The errors a service gives; two further ones of the source are never
built. -/
inductive CoreServiceError where
  | invalidConfig (error : ValidationError)
  | bind (tag source : String)

def CoreServiceError.display : CoreServiceError → String
  | invalidConfig error => "invalid core config: " ++ error.message
  | bind tag source => "failed to bind inbound " ++ tag ++ ": " ++ source

/-- What may differ from one command to the next: how the operating system
answers, the clock, and the order in which hash maps are walked. -/
structure World where
  /-- The bound address of the n-th listener ever started, or the error. -/
  startListener : Nat → Except String SocketAddr
  toSocketAddrs : String → UInt16 → Except String (List SocketAddr)
  now : Nat
  userOrder : UserOrder
  ipOrder : HashOrder IpAddr UInt64

structure ListenerStatus where
  tag : String
  protocol : Protocol
  localAddr : SocketAddr
deriving DecidableEq

/-- The accept threads that have not been told to stop.  One whose `accept`
fails ends all the same; dropping the handle of another only detaches it. -/
structure Host where
  /-- The number of starts tried so far, and the identity of the next thread. -/
  next : Nat := 0
  running : HashMap Nat ListenerStatus := ∅

namespace Host

/-- Set the stop flag of some threads and wait for them. -/
def stopThreads (host : Host) (ids : Multiset Nat) : Host :=
  { host with running := host.running.retain fun id _ => id ∉ ids }

end Host

/-- A handle to a listener.  The source's handle reaches the routes and users
through shared pointers; here it holds them. -/
structure ListenerHandle where
  id : Nat
  status : ListenerStatus
  listen : String
  port : UInt16
  setup : ListenerSetup
  routes : List RouteRule
  table : UserTable

namespace ListenerHandle

/-- The list a listener passes on to the shared limits: VMess drops the users
it could not key. -/
def limitedUsers (handle : ListenerHandle) (users : List CoreUser) : List CoreUser :=
  if handle.status.protocol = .vmess then validVmessUsers users else users

def limitedDelta (handle : ListenerHandle) (delta : CoreUserDelta) :
    CoreUserDelta :=
  { delta with
    added := handle.limitedUsers delta.added
    updated := handle.limitedUsers delta.updated
    full := delta.full.map handle.limitedUsers }

def replaceUsers (env : Externals) (handle : ListenerHandle)
    (bandwidth : UserBandwidthLimiters) (users : List CoreUser) :
    ListenerHandle × UserBandwidthLimiters :=
  ({ handle with table := .build env handle.status.protocol users },
    bandwidth.syncUsers (handle.limitedUsers users))

def replaceRoutes (handle : ListenerHandle) (routes : List RouteRule) :
    ListenerHandle :=
  { handle with routes }

end ListenerHandle

/-- `start_listener_handle`.  A failed start leaves nothing behind; a
successful one leaves a running thread. -/
def startListenerHandle (env : Externals) (world : World) (host : Host)
    (activeConfig : CoreConfig) (inbound : InboundConfig) :
    Host × Except CoreServiceError ListenerHandle :=
  match world.startListener host.next with
  | .error source => ({ host with next := host.next + 1 }, .error (.bind inbound.tag source))
  | .ok localAddr =>
    let status : ListenerStatus :=
      { tag := inbound.tag, protocol := inbound.protocol, localAddr }
    ({ next := host.next + 1, running := host.running.insert host.next status }, .ok
        { id := host.next
          status
          listen := inbound.listen
          port := inbound.port
          setup := listenerSetup env activeConfig.policy inbound
          routes := activeConfig.resolvedInboundRoutes inbound
          table := .build env inbound.protocol inbound.users })

inductive BindNetwork where
  | tcp
  | udp
deriving DecidableEq

def BindNetwork.display : BindNetwork → String
  | tcp => "tcp"
  | udp => "udp"

structure ListenerBindSpec where
  tag : String
  protocol : Protocol
  network : BindNetwork
  addr : SocketAddr

def protocolDebug : Protocol → String
  | .shadowsocks => "Shadowsocks"
  | .vmess => "Vmess"
  | .vless => "Vless"
  | .trojan => "Trojan"
  | .hysteria2 => "Hysteria2"
  | .tuic => "Tuic"
  | .anyTls => "AnyTls"
  | .socks => "Socks"
  | .http => "Http"
  | .naive => "Naive"
  | .mieru => "Mieru"

def resolveListenAddr (world : World) (listen : String) (port : UInt16) :
    Except String SocketAddr :=
  let listen := trim listen
  let listen :=
    if ["", "0.0.0.0", "::", "[::]"].contains listen then "::" else listen
  match world.toSocketAddrs listen port with
  | .error error => .error error
  | .ok [] => .error "listen address did not resolve"
  | .ok (addr :: _) => .ok addr

def protocolBindsTcp (inbound : InboundConfig) : Bool :=
  match inbound.protocol with
  | .hysteria2 | .tuic => false
  | .naive => !naiveUsesQuic inbound
  | _ => true

def protocolBindsUdp (inbound : InboundConfig) : Bool :=
  inboundBindsQuic inbound || (inbound.protocol == .shadowsocks &&
    shadowsocksUdpEnabled inbound.transport)

def listenAddrsConflict (left right : SocketAddr) : Bool :=
  left.port == right.port && (left.ip == right.ip ||
    left.ip.isUnspecified || right.ip.isUnspecified)

def listenerBindSpecs (world : World) (inbound : InboundConfig) :
    Except ValidationError (List ListenerBindSpec) :=
  match resolveListenAddr world inbound.listen inbound.port with
  | .error error =>
    .error ⟨"inbound " ++ inbound.tag ++ " listen " ++ inbound.listen ++ ":" ++
      Nat.repr inbound.port.toNat ++ " did not resolve: " ++ error⟩
  | .ok addr =>
    let spec (network : BindNetwork) : ListenerBindSpec :=
      { tag := inbound.tag, protocol := inbound.protocol, network, addr }
    .ok ((if protocolBindsTcp inbound then [spec .tcp] else []) ++
      if protocolBindsUdp inbound then [spec .udp] else [])

def checkBindSpec (seen : List ListenerBindSpec) (spec : ListenerBindSpec) :
    Check :=
  match seen.find? fun existing => existing.network == spec.network &&
      listenAddrsConflict existing.addr spec.addr with
  | none => .ok ()
  | some existing =>
    .error ⟨"duplicate " ++ spec.network.display ++ " listen " ++
      spec.addr.display ++ " for inbound " ++ spec.tag ++ " (" ++
      protocolDebug spec.protocol ++ ") conflicts with " ++ existing.tag ++
      " (" ++ protocolDebug existing.protocol ++ "); change one node server port or listen address"⟩

def validateUniqueListenerBinds (world : World) : List ListenerBindSpec → List InboundConfig → Check
  | _, [] => .ok ()
  | seen, inbound :: rest => do
      let specs ← listenerBindSpecs world inbound
      let seen ← specs.foldlM (fun seen spec => do
          checkBindSpec seen spec
          pure (seen ++ [spec]))
        seen
      validateUniqueListenerBinds world seen rest

end KeliCore
