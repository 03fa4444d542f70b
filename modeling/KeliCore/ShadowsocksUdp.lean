/-
The UDP relay of a Shadowsocks inbound: one socket for all clients and all
remotes, a table of return paths keyed by the remote address, and a table of
client sessions.
-/
import KeliCore.Limits
import KeliCore.Routing
import KeliCore.Run
import KeliCore.Traffic

namespace KeliCore

open Text

inductive ShadowsocksMethod where
  | aes128Gcm
  | aes256Gcm
  | chaCha20IetfPoly1305

namespace ShadowsocksMethod

def normalizeMethod (method : String) : String :=
  replaceChars (· == '_') '-' (toAsciiLowercase (trim method))

def parse (method : String) : Except IoError ShadowsocksMethod :=
  match normalizeMethod method with
  | "aes-128-gcm" => .ok .aes128Gcm
  | "aes-256-gcm" => .ok .aes256Gcm
  | "chacha20-ietf-poly1305" => .ok .chaCha20IetfPoly1305
  | value => .error ⟨.unsupported, "shadowsocks cipher " ++ value ++ " is not supported"⟩

/-- `salt_len`, the same as `key_len` -/
def saltLen : ShadowsocksMethod → Nat
  | .aes128Gcm => 16
  | .aes256Gcm | .chaCha20IetfPoly1305 => 32

end ShadowsocksMethod

/-- One packet under a password and a salt: the key derivation of
`ShadowsocksCipher::new` and the AEAD with its first nonce. -/
structure ShadowsocksCrypto where
  decrypt : ShadowsocksMethod → String → List UInt8 → List UInt8 → Option (List UInt8)
  encrypt : ShadowsocksMethod → String → List UInt8 → List UInt8 → Option (List UInt8)

structure ShadowsocksUdpRequest where
  user : CoreUser
  target : SocksTarget
  payload : List UInt8
deriving DecidableEq

structure UdpClientContext where
  clientAddr : SocketAddr
  user : CoreUser
deriving DecidableEq

structure UdpClientSession where
  userUuid : String
  lastSeen : Nat
  guard : Option UserSessionGuard
deriving DecidableEq

/-- `UDP_SESSION_TTL`, in milliseconds -/
def udpSessionTtl : Nat := 300 * 1000

/-- The error of a cursor that has too few bytes left. -/
def failedToFill : IoError := ⟨.unexpectedEof, "failed to fill whole buffer"⟩

/-- `read_exact` of a cursor: the bytes and what is left. -/
def readExact (len : Nat) (input : List UInt8) : Except IoError (List UInt8 × List UInt8) :=
  if input.length < len then .error failedToFill
  else .ok (input.take len, input.drop len)

/-- The host of `parse_request_payload`, and what follows it. -/
def readHost : List UInt8 → Except IoError (String × List UInt8)
  | [] => .error failedToFill
  | kind :: rest =>
    if kind = 0x01 then do
      let (octets, rest) ← readExact 4 rest
      return ((IpAddr.v4 (.ofNat 32 (beNat octets))).display, rest)
    else if kind = 0x03 then do
      let (len, rest) ← readExact 1 rest
      let (name, rest) ← readExact (beNat len) rest
      match String.fromUTF8? ⟨name.toArray⟩ with
      | some host => return (host, rest)
      | none => throw ⟨.invalidData, "invalid utf-8"⟩
    else if kind = 0x04 then do
      let (octets, rest) ← readExact 16 rest
      return ((IpAddr.v6 (.ofNat 128 (beNat octets))).display, rest)
    else .error ⟨.invalidData, "unsupported shadowsocks address type"⟩

def parseRequestPayload (payload : List UInt8) : Except IoError (SocksTarget × List UInt8) := do
  let (host, rest) ← readHost payload
  let (port, rest) ← readExact 2 rest
  return ({ host, port := .ofNat (beNat port) }, rest)

def encodeTarget (source : SocketAddr) : List UInt8 :=
  let octets (count bits : Nat) : List UInt8 :=
    (List.range count).map fun index => .ofNat (bits / 256 ^ (count - 1 - index))
  (match source.ip with
    | .v4 bits => 0x01 :: octets 4 bits.toNat
    | .v6 bits => 0x04 :: octets 16 bits.toNat) ++ toBeBytes source.port

/-- The parts of a server that `serve_udp` reads, once it has parsed the
method. -/
structure ShadowsocksServer where
  nodeTag : String
  method : ShadowsocksMethod
  crypto : ShadowsocksCrypto

/-- What one turn of `serve_udp` meets: the shared stores as they are, the
clock, and what the system calls give. -/
structure UdpTurn where
  stop : Bool := false
  /-- the clock in `prune_udp_sessions`, and later in the turn -/
  pruneTime : Nat
  now : Nat
  users : List CoreUser
  routes : List RouteRule
  matching : RouteMatching
  /-- the results of `recv_from`, one after the other -/
  receives : Nat → Except IoError (List UInt8 × SocketAddr)
  /-- `try_acquire_for_node_ip`; the error is its text -/
  acquire : CoreUser → IpAddr → Except String (Option UserSessionGuard)
  /-- the user's limiter, if there is one, lets the bytes through -/
  admits : CoreUser → Nat → Bool
  sendUdpOutbound : OutboundConfig → SocksTarget → List UInt8 →
    Except IoError (SocketAddr × List UInt8)
  resolveUdpTarget : SocksTarget → Except IoError SocketAddr
  sendTo : List UInt8 → SocketAddr → Except IoError Unit
  fillRandom : Except IoError (List UInt8)

/-- What the relay did: datagrams that went out, and traffic records. -/
inductive UdpEffect where
  | sent (packet : List UInt8) (destination : SocketAddr)
  | recorded (delta : TrafficDelta)
deriving DecidableEq

/-- The locals of `serve_udp`, and what was done so far. -/
structure UdpRelay where
  remotes : HashMap SocketAddr UdpClientContext := ∅
  clientSessions : HashMap SocketAddr UdpClientSession := ∅
  effects : List UdpEffect := []
  /-- Which remotes were sent to directly, and for whom; nothing reads it. -/
  forwarded : List (SocketAddr × UdpClientContext) := []

def IoError.isTimeout (error : IoError) : Bool :=
  error.kind == .wouldBlock || error.kind == .timedOut

namespace UdpTurn

def maxUdpConnectionResetRetries : Nat := 256

/-- The loop of `recv_udp_response`, after some calls that were reset. -/
def recvLoop (receives : Nat → Except IoError (List UInt8 × SocketAddr)) :
    Nat → Nat → Except IoError (List UInt8 × SocketAddr)
  | 0, resets => receives resets
  | retries + 1, resets =>
    match receives resets with
    | .error error =>
      if error.kind = .connectionReset then
        recvLoop receives retries (resets + 1)
      else .error error
    | .ok received => .ok received

def recvUdpResponse (turn : UdpTurn) : Except IoError (List UInt8 × SocketAddr) :=
  recvLoop turn.receives maxUdpConnectionResetRetries 0

end UdpTurn

namespace UdpRelay

/-- A client whose session is older than the limit. -/
def expired (relay : UdpRelay) (now : Nat) (client : SocketAddr) : Bool :=
  (relay.clientSessions.lookup client).any fun session => udpSessionTtl < now - session.lastSeen

def pruneUdpSessions (relay : UdpRelay) (now : Nat) : UdpRelay :=
  { relay with
    clientSessions := relay.clientSessions.retain fun client _ => !relay.expired now client
    remotes := relay.remotes.retain fun _ context => !relay.expired now context.clientAddr }

/-- Note that a client, if it has a session, is still there. -/
def touch (relay : UdpRelay) (client : SocketAddr) (now : Nat) : UdpRelay :=
  match relay.clientSessions.lookup client with
  | some session =>
    { relay with
      clientSessions := relay.clientSessions.insert client
        { session with lastSeen := now } }
  | none => relay

def send (relay : UdpRelay) (turn : UdpTurn) (packet : List UInt8)
    (destination : SocketAddr) : UdpRelay × Except IoError Unit :=
  match turn.sendTo packet destination with
  | .error error => (relay, .error error)
  | .ok () => ({ relay with effects := relay.effects ++ [.sent packet destination] }, .ok ())

end UdpRelay

namespace ShadowsocksServer

variable (server : ShadowsocksServer)

def readUdpRequest (users : List CoreUser) (packet : List UInt8) :
    Except IoError ShadowsocksUdpRequest :=
  if packet.length ≤ server.method.saltLen + 16 then
    .error ⟨.unexpectedEof, "shadowsocks udp packet too short"⟩
  else
    let salt := packet.take server.method.saltLen
    let encrypted := packet.drop server.method.saltLen
    match users.findSome? fun user =>
        (server.crypto.decrypt server.method user.credential salt
          encrypted).map fun plain => (user, plain) with
    | none => .error ⟨.permissionDenied, "unknown shadowsocks udp user"⟩
    | some (user, plain) =>
      match parseRequestPayload plain with
      | .error error => .error error
      | .ok (target, payload) => .ok { user, target, payload }

def encodeUdpPacket (turn : UdpTurn) (context : UdpClientContext)
    (source : SocketAddr) (payload : List UInt8) : Except IoError (List UInt8) :=
  match turn.fillRandom with
  | .error error => .error error
  | .ok salt =>
    match server.crypto.encrypt server.method context.user.credential salt
        (encodeTarget source ++ payload) with
    | none => .error ⟨.invalidData, "encrypt chunk"⟩
    | some body => .ok (salt ++ body)

/-- The delta of an `add_with_user_id`. -/
def udpDelta (user : CoreUser) (upload download : Nat) (clientIp : IpAddr) : TrafficDelta where
  nodeTag := server.nodeTag
  userUuid := user.uuid
  userId := some user.id
  upload := .ofNat upload
  download := .ofNat download
  onlineIps := [clientIp.display]

def recordUdpTraffic (relay : UdpRelay) (user : CoreUser)
    (upload download : Nat) (clientIp : IpAddr) : UdpRelay :=
  if 0 < upload ∨ 0 < download then
    { relay with
      effects := relay.effects ++ [.recorded (server.udpDelta user upload download clientIp)] }
  else relay

def sendReply (relay : UdpRelay) (turn : UdpTurn) (context : UdpClientContext)
    (source : SocketAddr) (payload : List UInt8) : UdpRelay × Except IoError Unit :=
  match server.encodeUdpPacket turn context source payload with
  | .error error => (relay, .error error)
  | .ok response => relay.send turn response context.clientAddr

def acquireUdpClientSession (relay : UdpRelay) (turn : UdpTurn)
    (client : SocketAddr) (user : CoreUser) : UdpRelay × Except IoError Unit :=
  match turn.matching.ensureSourceIpAllowed turn.routes (some client.ip) with
  | .error error => (relay, .error error)
  | .ok () =>
    match relay.clientSessions.lookup client with
    | some session =>
      if session.userUuid = user.uuid then
        ({ relay with
            clientSessions := relay.clientSessions.insert client
              { session with lastSeen := turn.now } }, .ok ())
      else openSession { relay with clientSessions := relay.clientSessions.erase client }
    | none => openSession relay
where
  openSession (relay : UdpRelay) : UdpRelay × Except IoError Unit :=
    match turn.acquire user client.ip with
    | .error message => (relay, .error ⟨.permissionDenied, message⟩)
    | .ok guard =>
      ({ relay with
          clientSessions := relay.clientSessions.insert client
            { userUuid := user.uuid, lastSeen := turn.now, guard } }, .ok ())

/-- `handle_udp_request` behind the session and the limiter, through an
outbound. -/
def relayOutbound (relay : UdpRelay) (turn : UdpTurn) (client : SocketAddr)
    (request : ShadowsocksUdpRequest) (outbound : OutboundConfig) :
    UdpRelay × Except IoError Unit :=
  match turn.sendUdpOutbound outbound request.target request.payload with
  | .ok (source, response) =>
    match server.sendReply relay turn ⟨client, request.user⟩ source response with
    | (relay, .error error) => (relay, .error error)
    | (relay, .ok ()) =>
      (server.recordUdpTraffic relay request.user request.payload.length
        response.length client.ip, .ok ())
  | .error error =>
    if error.isTimeout then
      (server.recordUdpTraffic relay request.user request.payload.length 0 client.ip, .ok ())
    else (relay, .error error)

/-- `handle_udp_request` behind the session and the limiter, straight to the
target. -/
def relayDirect (relay : UdpRelay) (turn : UdpTurn) (client : SocketAddr)
    (request : ShadowsocksUdpRequest) : UdpRelay × Except IoError Unit :=
  match turn.resolveUdpTarget request.target with
  | .error error => (relay, .error error)
  | .ok remote =>
    match relay.send turn request.payload remote with
    | (relay, .error error) => (relay, .error error)
    | (relay, .ok ()) =>
      (server.recordUdpTraffic
        { relay with
          remotes := relay.remotes.insert remote ⟨client, request.user⟩
          forwarded := (remote, ⟨client, request.user⟩) :: relay.forwarded }
        request.user request.payload.length 0 client.ip, .ok ())

/-- `handle_udp_request` behind the route decision. -/
def relayRequest (relay : UdpRelay) (turn : UdpTurn) (client : SocketAddr)
    (request : ShadowsocksUdpRequest) (outbound : Option OutboundConfig) :
    UdpRelay × Except IoError Unit :=
  match acquireUdpClientSession relay turn client request.user with
  | (relay, .error error) =>
    if error.kind = .permissionDenied then (relay, .ok ())
    else (relay, .error error)
  | (relay, .ok ()) =>
    if !turn.admits request.user request.payload.length then (relay, .ok ())
    else
      match outbound with
      | some outbound => server.relayOutbound relay turn client request outbound
      | none => server.relayDirect relay turn client request

def handleUdpRequest (relay : UdpRelay) (turn : UdpTurn) (client : SocketAddr)
    (request : ShadowsocksUdpRequest) : UdpRelay × Except IoError Unit :=
  match turn.matching.ensureSourceIpAllowed turn.routes (some client.ip) with
  | .error error => (relay, .error error)
  | .ok () =>
    match turn.matching.decideUdp turn.routes request.target request.payload with
    | .direct => server.relayRequest relay turn client request none
    | .outbound outbound => server.relayRequest relay turn client request (some outbound)
    | .block => (relay, .ok ())
    | .unsupportedOutbound tag =>
      (relay, .error ⟨.unsupported, "outbound route " ++ tag ++ " is not implemented"⟩)

/-- A datagram that is no request, from an address with a return path. -/
def relayReply (relay : UdpRelay) (turn : UdpTurn) (source : SocketAddr)
    (packet : List UInt8) (context : UdpClientContext) : UdpRelay × Except IoError Unit :=
  match server.sendReply relay turn context source packet with
  | (relay, .error error) => (relay, .error error)
  | (relay, .ok ()) =>
    (server.recordUdpTraffic (relay.touch context.clientAddr turn.now)
      context.user 0 packet.length context.clientAddr.ip, .ok ())

def handleDatagram (relay : UdpRelay) (turn : UdpTurn) (packet : List UInt8)
    (source : SocketAddr) : UdpRelay × Except IoError Unit :=
  match server.readUdpRequest turn.users packet with
  | .ok request => server.handleUdpRequest relay turn source request
  | .error _ =>
    match relay.remotes.lookup source with
    | some context => server.relayReply relay turn source packet context
    | none => (relay, .ok ())

/-- The body of the loop of `serve_udp`. -/
def udpBody (relay : UdpRelay) (turn : UdpTurn) : UdpRelay × Except IoError Unit :=
  let relay := relay.pruneUdpSessions turn.pruneTime
  match turn.recvUdpResponse with
  | .ok (packet, source) => server.handleDatagram relay turn packet source
  | .error error => if error.isTimeout then (relay, .ok ()) else (relay, .error error)

end ShadowsocksServer

/-- A call of `serve_udp`: its locals, and the result once it has returned. -/
structure UdpService where
  relay : UdpRelay := {}
  returned : Option (Except IoError Unit) := none

/-- One turn of the loop of `serve_udp`. -/
def ShadowsocksServer.serveTurn (server : ShadowsocksServer)
    (service : UdpService) (turn : UdpTurn) : UdpService :=
  match service.returned with
  | some _ => service
  | none =>
    if turn.stop then { service with returned := some (.ok ()) }
    else
      match server.udpBody service.relay turn with
      | (relay, .ok ()) => { relay }
      | (relay, .error error) => { relay, returned := some (.error error) }

/-- `serve_udp` over the turns it meets; a method that does not parse ends it
before the first. -/
def serveUdp (nodeTag method : String) (crypto : ShadowsocksCrypto)
    (turns : List UdpTurn) : UdpService :=
  match ShadowsocksMethod.parse method with
  | .error error => { returned := some (.error error) }
  | .ok method => Run.exec (ShadowsocksServer.serveTurn ⟨nodeTag, method, crypto⟩) {} turns

end KeliCore
