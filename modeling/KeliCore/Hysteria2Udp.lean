/-
UDP over Hysteria2.  A message that cannot be handled is passed over, a fragment
that cannot be taken ends the loop; sessions are dropped when they are idle or
when a new one needs room.
-/
import KeliCore.QuicUdp
import KeliCore.UdpFormats
import Mathlib.Data.List.MinMax

namespace KeliCore

open Finmap

namespace Hysteria2

open Text

/-- `UdpDatagram`: the key holds the session and the packet id. -/
abbrev UdpDatagram := Reassembly.Part (UInt32 × UInt16) SocksTarget UInt8

def readVarintFrom : List UInt8 → Except IoError (Nat × List UInt8)
  | [] => .error ⟨.unexpectedEof, "missing QUIC varint"⟩
  | first :: rest =>
    let more := 2 ^ (first.toNat / 64) - 1
    if rest.length < more then
      .error ⟨.unexpectedEof, "truncated QUIC varint"⟩
    else
      .ok (beNat (.ofNat (first.toNat % 64) :: rest.take more), rest.drop more)

def parsePort (value : String) : Except IoError UInt16 :=
  match parseU16 value with
  | some port => .ok (.ofNat port)
  | none => .error ⟨.invalidData, "hysteria2 target port is invalid"⟩

def parseTargetAddress (address : String) : Except IoError SocksTarget :=
  match stripPrefix address "[" with
  | some rest =>
    match splitOnce ']' rest with
    | none => .error ⟨.invalidData, "invalid hysteria2 ipv6 address"⟩
    | some (host, rest) =>
      match stripPrefix rest ":" with
      | none => .error ⟨.invalidData, "missing port"⟩
      | some port => (parsePort port).map fun port => { host, port }
  | none =>
    match rsplitOnce ':' address with
    | none => .error ⟨.invalidData, "hysteria2 target missing port"⟩
    | some (host, port) =>
      if host.isEmpty then
        .error ⟨.invalidData, "hysteria2 target host is empty"⟩
      else (parsePort port).map fun port => { host, port }

def parseUdpDatagram : List UInt8 → Except IoError UdpDatagram
  | a :: b :: c :: d :: e :: f :: id :: count :: rest => do
      let (len, rest) ← readVarintFrom rest
      if len = 0 ∨ 4096 < len then
        throw ⟨.invalidData, "invalid hysteria2 udp address length"⟩
      let (address, bytes) ← takeExact len "truncated hysteria2 udp address" rest
      match String.fromUTF8? ⟨address.toArray⟩ with
      | none => throw ⟨.invalidData, "invalid hysteria2 udp address"⟩
      | some address =>
        let target ← parseTargetAddress address
        return {
          key := (.ofNat (beNat [a, b, c, d]), .ofNat (beNat [e, f]))
          index := id.toNat, count := count.toNat, target, bytes }
  | _ => .error ⟨.invalidData, "hysteria2 udp datagram is too short"⟩

/-- What `UdpFragmentStore::push` says of a fault. -/
def fragmentError : Reassembly.Fault → IoError
  | .badIndex => ⟨.invalidData, "invalid hysteria2 udp fragment index"⟩
  | .tooManyGroups => ⟨.invalidData, "too many incomplete hysteria2 udp fragment groups"⟩
  | .otherCount | .otherTarget => ⟨.invalidData, "mismatched hysteria2 udp fragment group"⟩
  | .tooLarge => ⟨.invalidData, "hysteria2 udp fragment group is too large"⟩

/-- `UdpRelaySession`; sockets are numbered as they are bound. -/
structure UdpRelaySession where
  socket : Nat
  target : SocksTarget
  targetAddr : SocketAddr
  lastActive : Nat

/-- The sessions of a connection, and how many sockets it has bound. -/
structure Sessions where
  sessions : HashMap UInt32 UdpRelaySession := ∅
  sockets : Nat := 0

/-- `UDP_MAX_SESSIONS_PER_CONNECTION` -/
def maxSessions : Nat := 64

def pruneUdpSessions (now : Nat) (sessions : HashMap UInt32 UdpRelaySession) :
    HashMap UInt32 UdpRelaySession :=
  sessions.retain fun _ session => now - session.lastActive < 20000

section Room

variable (order : HashOrder UInt32 UdpRelaySession)

/-- The loop of `make_room_for_udp_session`; each turn removes one session. -/
def evictOldest : Nat → HashMap UInt32 UdpRelaySession → HashMap UInt32 UdpRelaySession
  | 0, sessions => sessions
  | fuel + 1, sessions =>
    if sessions.len < maxSessions then sessions
    else
      match (order.iter sessions).argmin fun entry => entry.2.lastActive with
      | none => sessions
      | some (oldest, _) => evictOldest fuel (sessions.erase oldest)

/-- `make_room_for_udp_session` -/
def makeRoom (now : Nat) (sessions : HashMap UInt32 UdpRelaySession) :
    HashMap UInt32 UdpRelaySession :=
  if sessions.len < maxSessions then sessions
  else
    let sessions := pruneUdpSessions now sessions
    evictOldest order sessions.len sessions

theorem len_evictOldest {sessions : HashMap UInt32 UdpRelaySession} {fuel : Nat}
    (hfuel : sessions.len ≤ fuel) : (evictOldest order fuel sessions).len < maxSessions := by
  induction fuel generalizing sessions with
  | zero =>
    rw [evictOldest, maxSessions]
    omega
  | succ fuel ih =>
    rw [evictOldest]
    split
    · assumption
    rename_i hfull
    split
    next hnone =>
      -- a full map has entries, and the order lists them
      obtain ⟨id, session, hsession⟩ := len_pos_iff.1
        (Nat.lt_of_lt_of_le (by decide) (Nat.le_of_not_lt hfull))
      have hmem := (order.mem_iter sessions id session).2 hsession
      rw [List.argmin_eq_none.1 hnone] at hmem
      simp at hmem
    next oldest session hsome =>
      have hmem := (order.mem_iter sessions oldest session).1 (List.argmin_mem hsome)
      apply ih
      have hkey := mem_keys.2 (mem_of_lookup_eq_some hmem)
      rw [len, keys_erase, Finset.card_erase_of_mem hkey]
      rw [len] at hfuel
      omega

theorem len_makeRoom (now : Nat) (sessions : HashMap UInt32 UdpRelaySession) :
    (makeRoom order now sessions).len < maxSessions := by
  rw [makeRoom]
  split
  · assumption
  · exact len_evictOldest order (Nat.le_refl _)

end Room

namespace Sessions

/-- `UdpRelaySession::touch`, on the session as the table has it. -/
def touch (table : Sessions) (sessionId : UInt32) (session : UdpRelaySession)
    (now : Nat) : Sessions :=
  { table with
    sessions := table.sessions.insert sessionId
      { session with lastActive := now } }

/-- The end of `get_udp_session`, with a socket just bound. -/
def insertSession (table : Sessions) (sessionId : UInt32)
    (target : SocksTarget) (address : SocketAddr) (now : Nat) :
    Sessions × UdpRelaySession × SocketAddr :=
  let session := ⟨table.sockets, target, address, now⟩
  match table.sessions.lookup sessionId with
  | some existing =>
    ({ table.touch sessionId existing now with
        sockets := table.sockets + 1 }, existing,
      if existing.target = target then existing.targetAddr else address)
  | none => (⟨table.sessions.insert sessionId session, table.sockets + 1⟩, session, address)

def getUdpSession (order : HashOrder UInt32 UdpRelaySession)
    (table : Sessions) (world : QuicWorld) (sessionId : UInt32) (target : SocksTarget) :
    Sessions × Except IoError (UdpRelaySession × SocketAddr) :=
  match table.sessions.lookup sessionId with
  | some session =>
    let table := table.touch sessionId session world.now
    if session.target = target then (table, .ok (session, session.targetAddr))
    else
      (table, (world.resolveUdpTarget target).map fun address => (session, address))
  | none =>
    let table :=
      { table with sessions := makeRoom order world.now table.sessions }
    match world.resolveUdpTarget target with
    | .error error => (table, .error error)
    | .ok address =>
      if !world.permit then
        (table, .error ⟨.other, "hysteria2 udp session limit reached"⟩)
      else
        match world.bindUdpSocket address.ip with
        | .error error => (table, .error error)
        | .ok () =>
          let (table, found) := table.insertSession sessionId target address world.later
          (table, .ok found)

end Sessions

/-- `handle_udp_message` for a direct route. -/
def relayDirect (order : HashOrder UInt32 UdpRelaySession) (table : Sessions)
    (world : QuicWorld) (sessionId : UInt32) (target : SocksTarget)
    (payload : List UInt8) : HandledUdp Sessions :=
  match table.getUdpSession order world sessionId target with
  | (table, .error error) => ⟨table, [], .error error⟩
  | (table, .ok (session, address)) =>
    if !world.admitsUpload payload.length then ⟨table, [], .ok .withheld⟩
    else
      match world.sendTo session.socket payload address with
      | .error error => ⟨table, [], .error error⟩
      | .ok () =>
        ⟨table.touch sessionId session world.later, [.sent session.socket payload address,
            .counted session.socket payload.length], .ok .relayed⟩

/-- The decision of `handle_udp_message`. -/
def decide (world : QuicWorld) (message : UdpDatagram) : RouteDecision :=
  if world.routes.isEmpty then .direct
  else world.matching.decideUdp world.routes message.target message.bytes

def handleUdpMessage (order : HashOrder UInt32 UdpRelaySession)
    (table : Sessions) (world : QuicWorld) (message : UdpDatagram) : HandledUdp Sessions :=
  match decide world message with
  | .block => ⟨table, [], .ok .blocked⟩
  | .unsupportedOutbound tag =>
    ⟨table, [], .error ⟨.unsupported, "outbound route " ++ tag ++ " is not implemented"⟩⟩
  | .outbound outbound => world.relayOutbound table outbound message.target message.bytes
  | .direct => relayDirect order table world message.key.1 message.target message.bytes

/-- `handle_udp_datagrams`; the limits are `UDP_MAX_FRAGMENT_SETS`,
`UDP_MAX_REASSEMBLED_BYTES` and `UDP_FRAGMENT_IDLE_TIMEOUT_MS`. -/
def udpLoop (order : HashOrder UInt32 UdpRelaySession) :
    QuicUdp (UInt32 × UInt16) SocksTarget Sessions where
  limits := ⟨4096, 64 * 1024, 10000⟩
  joining :=
    { initial := id
      join := fun group target => if group = target then some group else none
      known := fun _ => true }
  fragmentError := fragmentError
  parse input := (parseUdpDatagram input).map .inl
  handle := handleUdpMessage order
  swallows := true
  cleanup table now :=
    { table with sessions := pruneUdpSessions now table.sessions }

end Hysteria2

end KeliCore
