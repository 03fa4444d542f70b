/-
The UDP relays that keep their counts to themselves until they return: the
SOCKS5 associate, the relay of a VMess body, the Mieru associate and Trojan's
relay over a TLS WebSocket.
-/
import KeliCore.Ledger
import KeliCore.UdpFormats

namespace KeliCore

open Relaying

/-- What sending a packet and waiting for its reply comes to. -/
inductive UdpExchange where
  /-- It failed before the packet was sent, -/
  | unsent (error : IoError)
  /-- or after. -/
  | unanswered (error : IoError)
  | answered (source : SocketAddr) (response : List UInt8)

/-- The calls of an exchange without an outbound. -/
structure DirectUdp where
  resolved : Except IoError SocketAddr
  bound : Except IoError Unit
  sent : Except IoError Unit
  receives : Nat → Except IoError (List UInt8 × SocketAddr)

namespace DirectUdp

def send (direct : DirectUdp) : Except IoError Unit := do
  let _ ← direct.resolved
  direct.bound
  direct.sent

def exchange (direct : DirectUdp) : UdpExchange :=
  match direct.send with
  | .error error => .unsent error
  | .ok () =>
    match UdpTurn.recvLoop direct.receives UdpTurn.maxUdpConnectionResetRetries 0 with
    | .error error => .unanswered error
    | .ok (response, source) => .answered source response

end DirectUdp

/-- What every relay meets when it forwards a packet. -/
structure Forwarding where
  routes : List RouteRule
  matching : RouteMatching
  /-- the limiter, if there is one, lets so many bytes through -/
  admits : Nat → Bool
  direct : DirectUdp
  /-- `send_udp_outbound` -/
  outbound : OutboundConfig → SocksTarget → List UInt8 → UdpExchange

def Forwarding.decide (forwarding : Forwarding) (target : SocksTarget)
    (payload : List UInt8) : RouteDecision :=
  forwarding.matching.decideUdp forwarding.routes target payload

def notImplemented (tag : String) : IoError :=
  ⟨.unsupported, "outbound route " ++ tag ++ " is not implemented"⟩

/-- A saturating count of payload bytes. -/
def tally (direction : Direction) (bytes : Nat) (ledger : Ledger Direction) : Ledger Direction :=
  ledger.count u64Max direction bytes

/-- Bytes that are moved and counted. -/
def carry (direction : Direction) (bytes : Nat) (ledger : Ledger Direction) : Ledger Direction :=
  tally direction bytes (ledger.move direction bytes)

/-- The books at the start of a relay's loop, or, if it could not be set up,
instead of it. -/
def openBooks (opened : Bool) : Ledger Direction :=
  if opened then {} else Ledger.lose {}

structure SocksUdpTurn where
  /-- a look at the control connection -/
  peek : Except IoError Nat
  receives : Nat → Except IoError (List UInt8 × SocketAddr)
  peerAddr : Except IoError SocketAddr
  sendTo : List UInt8 → SocketAddr → Except IoError Unit
  forwarding : Forwarding

def SocksUdpTurn.controlIsOpen (turn : SocksUdpTurn) : Except IoError Bool :=
  match turn.peek with
  | .ok bytes => .ok (bytes != 0)
  | .error error => if error.isTimeout then .ok true else .error error

structure SocksUdp where
  client : Option SocketAddr := none
  ledger : Ledger Direction := {}

namespace SocksUdp

def post (change : Ledger Direction → Ledger Direction) (state : SocksUdp) :
    SocksUdp :=
  { state with ledger := change state.ledger }

/-- After the loop; the counts are recorded for a user. -/
def close (userUuid : Option String) (ledger : Ledger Direction) : Ledger Direction :=
  match userUuid with
  | some _ => ledger.finish
  | none => ledger.lose

/-- A packet of the client that has gone to an outbound.  One that was not
sent in time is counted all the same. -/
def relayOutbound (turn : SocksUdpTurn) (client : SocketAddr) (bytes : Nat)
    (exchange : UdpExchange) (ledger : Ledger Direction) : Ledger Direction :=
  match exchange with
  | .unsent error => if error.isTimeout then tally .upload bytes ledger else ledger.lose
  | .unanswered error =>
    if error.isTimeout then carry .upload bytes ledger
    else (ledger.move .upload bytes).lose
  | .answered source response =>
    let ledger := ledger.move .upload bytes
    match turn.sendTo (encodeUdpResponse source response) client with
    | .error _ => ledger.lose
    | .ok () => tally .upload bytes (carry .download response.length ledger)

variable (userUuid : Option String)

def relayRequest (turn : SocksUdpTurn) (client : SocketAddr)
    (packet : List UInt8) (ledger : Ledger Direction) : Ledger Direction :=
  match parseUdpRequest packet with
  | .error _ => ledger.lose
  | .ok (target, payload) =>
    match turn.forwarding.decide target payload with
    | .direct =>
      if !turn.forwarding.admits payload.length then close userUuid ledger
      else
        match turn.forwarding.direct.resolved with
        | .error _ => ledger.lose
        | .ok remote =>
          match turn.sendTo payload remote with
          | .error _ => ledger.lose
          | .ok () => carry .upload payload.length ledger
    | .outbound outbound =>
      if !turn.forwarding.admits payload.length then close userUuid ledger
      else
        relayOutbound turn client payload.length
          (turn.forwarding.outbound outbound target payload) ledger
    | .block => ledger
    | .unsupportedOutbound _ => ledger.lose

/-- A packet of anyone else. -/
def relayReply (turn : SocksUdpTurn) (client source : SocketAddr)
    (packet : List UInt8) (ledger : Ledger Direction) : Ledger Direction :=
  match turn.sendTo (encodeUdpResponse source packet) client with
  | .error _ => ledger.lose
  | .ok () => carry .download packet.length ledger

/-- The first packet from the peer's address tells where the client is. -/
def learnClient (turn : SocksUdpTurn) (source : SocketAddr)
    (state : SocksUdp) : Except IoError (Option SocketAddr) :=
  match state.client with
  | some client => .ok (some client)
  | none =>
    match turn.peerAddr with
    | .error error => .error error
    | .ok peer => .ok (if source.ip = peer.ip then some source else none)

def relayPacket (turn : SocksUdpTurn) (packet : List UInt8)
    (source : SocketAddr) (state : SocksUdp) : SocksUdp :=
  match state.learnClient turn source with
  | .error _ => state.post Ledger.lose
  | .ok none => state
  | .ok (some client) =>
    { client := some client
      ledger :=
        if client = source then
          relayRequest userUuid turn client packet state.ledger
        else relayReply turn client source packet state.ledger }

/-- One turn of the loop of `handle_udp_associate`. -/
def step (state : SocksUdp) (turn : SocksUdpTurn) : SocksUdp :=
  match state.ledger.ended with
  | some _ => state
  | none =>
    match turn.controlIsOpen with
    | .error _ => state.post Ledger.lose
    | .ok false => state.post (close userUuid)
    | .ok true =>
      match UdpTurn.recvLoop turn.receives UdpTurn.maxUdpConnectionResetRetries 0 with
      | .ok (packet, source) => state.relayPacket userUuid turn packet source
      | .error error => if error.isTimeout then state else state.post Ledger.lose

/-- `handle_udp_associate` -/
def run (opened : Bool) (turns : List SocksUdpTurn) : SocksUdp :=
  Run.exec (step userUuid) { ledger := openBooks opened } turns

end SocksUdp

/-- What forwarding a packet comes to: the bytes that were sent, and what is
returned, the bytes to count and the reply. -/
abbrev Forwarded := Nat × Except IoError (Nat × Option (SocketAddr × List UInt8))

/-- The part of a forwarding behind an exchange: a reply that does not come in
time is none. -/
def UdpExchange.forwarded (bytes : Nat) : UdpExchange → Forwarded
  | .unsent error => (0, .error error)
  | .unanswered error => (bytes, if error.isTimeout then .ok (bytes, none) else .error error)
  | .answered source response => (bytes, .ok (bytes, some (source, response)))

/-- Through an outbound, no time is told from another: a packet that could not
be sent in time is returned as if it had been. -/
def UdpExchange.forwardedOutbound (bytes : Nat) : UdpExchange → Forwarded
  | .unsent error => (0, if error.isTimeout then .ok (bytes, none) else .error error)
  | .unanswered error => (bytes, if error.isTimeout then .ok (bytes, none) else .error error)
  | .answered source response => (bytes, .ok (bytes, some (source, response)))

/-- `forward_udp_payload` of VMess and `send_udp_packet` of Trojan, up to what
they do without an outbound. -/
def Forwarding.forward (forwarding : Forwarding)
    (direct : DirectUdp → Nat → Forwarded) (target : SocksTarget)
    (payload : List UInt8) : Forwarded :=
  match forwarding.decide target payload with
  | .block => (0, .ok (0, none))
  | .unsupportedOutbound tag => (0, .error (notImplemented tag))
  | .direct =>
    if !forwarding.admits payload.length then (0, .ok (0, none))
    else direct forwarding.direct payload.length
  | .outbound outbound =>
    if !forwarding.admits payload.length then (0, .ok (0, none))
    else
      (forwarding.outbound outbound target payload).forwardedOutbound payload.length

/-- VMess waits for the reply. -/
def forwardUdpPayload (forwarding : Forwarding) (target : SocksTarget)
    (payload : List UInt8) : Forwarded :=
  forwarding.forward (fun direct => direct.exchange.forwarded) target payload

/-- Trojan asks for replies later. -/
def sendUdpPacket (forwarding : Forwarding) (target : SocksTarget)
    (payload : List UInt8) : Forwarded :=
  forwarding.forward (fun direct bytes =>
      match direct.send with
      | .error error => (0, .error error)
      | .ok () => (bytes, .ok (bytes, none)))
    target payload

/-- What the two relays do with a packet: the bytes are counted, the reply is
written, and an error ends the relay with its counts. -/
def relayForwarded (write : SocketAddr → List UInt8 → Except IoError Unit)
    (forwarded : Forwarded) (ledger : Ledger Direction) : Ledger Direction :=
  let ledger := ledger.move .upload forwarded.1
  match forwarded.2 with
  | .error _ => ledger.finish
  | .ok (sent, none) => tally .upload sent ledger
  | .ok (sent, some (source, response)) =>
    let ledger := tally .upload sent ledger
    match write source response with
    | .error _ => ledger.lose
    | .ok () => carry .download response.length ledger

structure VmessUdpTurn where
  /-- `read_packet` -/
  packet : Except IoError (Option (List UInt8))
  writePacket : List UInt8 → Except IoError Unit
  forwarding : Forwarding

namespace VmessUdp

variable (target : SocksTarget)

/-- One turn of the loop of `relay_udp_split` and of `relay_udp_single`. -/
def step (ledger : Ledger Direction) (turn : VmessUdpTurn) : Ledger Direction :=
  match ledger.ended with
  | some _ => ledger
  | none =>
    match turn.packet with
    | .error _ => ledger.finish
    | .ok none => ledger.finish
    | .ok (some payload) =>
      relayForwarded (fun _ => turn.writePacket)
        (forwardUdpPayload turn.forwarding target payload) ledger

def run (opened : Bool) (turns : List VmessUdpTurn) : Ledger Direction :=
  Run.exec (step target) (openBooks opened) turns

end VmessUdp

structure MieruUdpTurn where
  read : Except IoError (List UInt8)
  write : List UInt8 → Except IoError Unit
  forwarding : Forwarding

structure MieruUdp where
  pending : List UInt8
  ledger : Ledger Direction := {}

namespace MieruUdp

/-- The reply to a packet is counted before it is written. -/
def relayExchange (write : List UInt8 → Except IoError Unit) (bytes : Nat)
    (exchange : UdpExchange) (ledger : Ledger Direction) : Ledger Direction :=
  match exchange with
  | .unsent error => if error.isTimeout then ledger else ledger.lose
  | .unanswered error =>
    let ledger := ledger.move .upload bytes
    if error.isTimeout then ledger else ledger.lose
  | .answered source response =>
    let ledger := tally .download response.length (carry .upload bytes ledger)
    match encodeMieruUdpFrame (encodeUdpResponse source response) with
    | .error _ => ledger.lose
    | .ok framed =>
      match write framed with
      | .error _ => ledger.lose
      | .ok () => ledger.move .download response.length

def relayPacket (turn : MieruUdpTurn) (packet : List UInt8)
    (ledger : Ledger Direction) : Ledger Direction :=
  match parseSocksUdpPacket packet with
  | .error _ => ledger.lose
  | .ok (target, payload) =>
    if !turn.forwarding.admits payload.length then ledger.finish
    else
      match turn.forwarding.decide target payload with
      | .direct => relayExchange turn.write payload.length turn.forwarding.direct.exchange ledger
      | .outbound outbound =>
        relayExchange turn.write payload.length
          (turn.forwarding.outbound outbound target payload) ledger
      | .block => ledger
      | .unsupportedOutbound _ => ledger.lose

/-- One turn of the loops of `relay_mieru_udp_associate` and of
`read_mieru_udp_frame`. -/
def step (state : MieruUdp) (turn : MieruUdpTurn) : MieruUdp :=
  match state.ledger.ended with
  | some _ => state
  | none =>
    match takeMieruUdpFrame state.pending with
    | (.error _, pending) => { pending, ledger := state.ledger.lose }
    | (.ok (some packet), pending) => { pending, ledger := relayPacket turn packet state.ledger }
    | (.ok none, pending) =>
      match turn.read with
      | .error _ => { pending, ledger := state.ledger.lose }
      | .ok [] =>
        { pending
          ledger := if pending.isEmpty then state.ledger.finish
            else state.ledger.lose }
      | .ok (first :: rest) => { state with pending := pending ++ (first :: rest).take 4096 }

/-- The caller records what `relay_mieru_udp_associate` returns. -/
def run (pending : List UInt8) (opened : Bool) (turns : List MieruUdpTurn) :
    MieruUdp :=
  Run.exec step { pending, ledger := openBooks opened } turns

end MieruUdp

structure TrojanUdpTurn where
  read : Except IoError (List UInt8)
  /-- `recv_available` -/
  available : Except IoError (Option (SocketAddr × List UInt8))
  write : List UInt8 → Except IoError Unit
  /-- `wait_readable_with_udp` -/
  waited : Except IoError Unit
  forwarding : Forwarding

inductive TrojanUdpPhase where
  | reading
  | parsing
  | receiving

structure TrojanUdp where
  phase : TrojanUdpPhase := .reading
  pending : List UInt8 := []
  progressed : Bool := false
  ledger : Ledger Direction := {}

namespace TrojanUdp

def post (change : Ledger Direction → Ledger Direction) (state : TrojanUdp) :
    TrojanUdp :=
  { state with ledger := change state.ledger }

/-- A read of the client; only here an error is a regular end. -/
def readStep (turn : TrojanUdpTurn) (state : TrojanUdp) : TrojanUdp :=
  match turn.read with
  | .ok [] => state.post Ledger.finish
  | .ok (first :: rest) =>
    { state with
      phase := .parsing, progressed := true
      pending := state.pending ++ (first :: rest).take (16 * 1024) }
  | .error error =>
    if error.isWouldBlock then
      { state with phase := .receiving, progressed := false }
    else state.post Ledger.finish

/-- A packet of the client, if one is complete. -/
def parseStep (turn : TrojanUdpTurn) (state : TrojanUdp) : TrojanUdp :=
  match parseTrojanUdpPacketFromBuffer state.pending with
  | .error _ => state.post Ledger.lose
  | .ok (none, pending) => { state with pending, phase := .receiving }
  | .ok (some (target, payload), pending) =>
    { state with
      pending
      ledger := relayForwarded
        (fun source response => turn.write (encodeTrojanUdpPacket source response))
        (sendUdpPacket turn.forwarding target payload) state.ledger }

/-- A reply, if there is one; then the relay rests, unless it was busy. -/
def receiveStep (turn : TrojanUdpTurn) (state : TrojanUdp) : TrojanUdp :=
  match turn.available with
  | .error _ => state.post Ledger.lose
  | .ok (some (source, payload)) =>
    match turn.write (encodeTrojanUdpPacket source payload) with
    | .error _ => state.post Ledger.lose
    | .ok () =>
      { state.post (carry .download payload.length) with
        progressed := true }
  | .ok none =>
    if state.progressed then { state with phase := .reading }
    else
      match turn.waited with
      | .error _ => state.post Ledger.lose
      | .ok () => { state with phase := .reading }

/-- One step of `relay_udp_tls_websocket`. -/
def step (state : TrojanUdp) (turn : TrojanUdpTurn) : TrojanUdp :=
  match state.ledger.ended with
  | some _ => state
  | none =>
    match state.phase with
    | .reading => state.readStep turn
    | .parsing => state.parseStep turn
    | .receiving => state.receiveStep turn

def run (opened : Bool) (turns : List TrojanUdpTurn) : TrojanUdp :=
  Run.exec step { ledger := openBooks opened } turns

end TrojanUdp

end KeliCore
