/-
UDP over TUIC.  Datagrams and unidirectional streams each have a loop of their
own; both use the associations of the connection, and an error ends the loop.
-/
import KeliCore.QuicUdp
import KeliCore.UdpFormats

namespace KeliCore

namespace Tuic

/-- `UdpPacket`: the key holds the association and the packet id, and the count
is `fragment_total`. -/
abbrev UdpPacket :=
  Reassembly.Part (UInt16 × UInt16) (Option SocksTarget) UInt8

inductive UdpCommand where
  | packet (packet : UdpPacket)
  | dissociate (assocId : UInt16)
  | heartbeat

/-- A host of known length, and the port behind it. -/
def parseHost (len : Nat) (message : String)
    (host : List UInt8 → Except IoError String) (input : List UInt8) :
    Except IoError (Option SocksTarget × List UInt8) :=
  if input.length < len + 2 then .error ⟨.unexpectedEof, message⟩
  else do
    let host ← host (input.take len)
    let (port, rest) ← takeExact 2 "truncated tuic port" (input.drop len)
    return (some { host, port := .ofNat (beNat port) }, rest)

def parseAddressFrom : List UInt8 → Except IoError (Option SocksTarget × List UInt8)
  | [] => .error ⟨.unexpectedEof, "missing tuic address type"⟩
  | kind :: rest =>
    if kind = 0xff then .ok (none, rest)
    else if kind = 0x00 then
      match rest with
      | [] => .error ⟨.unexpectedEof, "missing tuic domain length"⟩
      | len :: rest =>
        parseHost len.toNat "truncated tuic domain address" (fun name =>
            match String.fromUTF8? ⟨name.toArray⟩ with
            | some host => .ok host
            | none => .error ⟨.invalidData, "invalid tuic domain"⟩) rest
    else if kind = 0x01 then
      parseHost 4 "truncated tuic ipv4 address" (fun octets =>
        .ok (IpAddr.v4 (.ofNat 32 (beNat octets))).display) rest
    else if kind = 0x02 then
      parseHost 16 "truncated tuic ipv6 address" (fun octets =>
        .ok (IpAddr.v6 (.ofNat 128 (beNat octets))).display) rest
    else .error ⟨.invalidData, "unsupported tuic address type"⟩

def parseUdpPacket : List UInt8 → Except IoError UdpPacket
  | a :: b :: c :: d :: total :: id :: high :: low :: rest => do
      let (target, payload) ← parseAddressFrom rest
      if payload.length ≠ beNat [high, low] then
        throw ⟨.invalidData, "tuic udp packet payload length mismatch"⟩
      return {
        key := (.ofNat (beNat [a, b]), .ofNat (beNat [c, d]))
        index := id.toNat, count := total.toNat, target, bytes := payload }
  | _ => .error ⟨.invalidData, "tuic udp packet command is too short"⟩

def parseUdpCommand : List UInt8 → Except IoError UdpCommand
  | version :: command :: rest =>
    if version ≠ 0x05 then
      .error ⟨.invalidData, "invalid tuic udp command header"⟩
    else if command = 0x02 then (parseUdpPacket rest).map .packet
    else if command = 0x03 then
      match rest with
      | [high, low] => .ok (.dissociate (.ofNat (beNat [high, low])))
      | _ => .error ⟨.invalidData, "invalid tuic dissociate command"⟩
    else if command = 0x04 then
      if rest.isEmpty then .ok .heartbeat
      else .error ⟨.invalidData, "invalid tuic heartbeat command"⟩
    else .error ⟨.invalidData, "unsupported tuic udp command"⟩
  | _ => .error ⟨.invalidData, "invalid tuic udp command header"⟩

/-- Any fragment may bring the target; those that do must agree. -/
def joinTargets : Reassembly.Joining (Option SocksTarget) where
  initial _ := none
  join
    | group, none => some group
    | none, some target => some (some target)
    | some existing, some target => if existing = target then some (some target) else none
  known := Option.isSome

/-- What `UdpFragmentStore::push` says of a fault. -/
def fragmentError : Reassembly.Fault → IoError
  | .badIndex => ⟨.invalidData, "invalid tuic udp fragment index"⟩
  | .tooManyGroups => ⟨.invalidData, "too many incomplete tuic udp fragment groups"⟩
  | .otherCount => ⟨.invalidData, "mismatched tuic udp fragment group"⟩
  | .otherTarget => ⟨.invalidData, "mismatched tuic udp fragment target"⟩
  | .tooLarge => ⟨.invalidData, "tuic udp fragment group is too large"⟩

inductive UdpReplyMode where
  | datagram
  | uniStream

/-- `UdpRelaySession`; sockets are numbered as they are bound. -/
structure UdpRelaySession where
  socket : Nat
  replyMode : UdpReplyMode
  closed : Bool := false

/-- The associations of a connection, and how many sockets it has bound. -/
structure Associations where
  sessions : HashMap UInt16 UdpRelaySession := ∅
  sockets : Nat := 0

namespace Associations

def openSession (table : Associations) (assocId : UInt16) : Option UdpRelaySession :=
  (table.sessions.lookup assocId).filter fun session => !session.closed

/-- The end of `get_udp_session`, with a socket just bound: the session that is
there by now, or a new one. -/
def insertSession (table : Associations) (assocId : UInt16)
    (replyMode : UdpReplyMode) : Associations × UdpRelaySession :=
  let session := { socket := table.sockets, replyMode }
  match table.openSession assocId with
  | some existing => ({ table with sockets := table.sockets + 1 }, existing)
  | none => (⟨table.sessions.insert assocId session, table.sockets + 1⟩, session)

def getUdpSession (table : Associations) (world : QuicWorld)
    (assocId : UInt16) (target : SocketAddr) (replyMode : UdpReplyMode) :
    Except IoError (Associations × UdpRelaySession) :=
  match table.openSession assocId with
  | some session => .ok (table, session)
  | none =>
    match world.bindUdpSocket target.ip with
    | .error error => .error error
    | .ok () => .ok (table.insertSession assocId replyMode)

/-- The command that ends an association. -/
def dissociate (assocId : UInt16) (table : Associations) : Associations :=
  { table with sessions := table.sessions.erase assocId }

end Associations

/-- `handle_udp_packet` for a direct route. -/
def relayDirect (mode : UdpReplyMode) (table : Associations)
    (world : QuicWorld) (assocId : UInt16) (target : SocksTarget)
    (payload : List UInt8) : HandledUdp Associations :=
  match world.resolveUdpTarget target with
  | .error error => ⟨table, [], .error error⟩
  | .ok address =>
    match table.getUdpSession world assocId address mode with
    | .error error => ⟨table, [], .error error⟩
    | .ok (table, session) =>
      if session.closed || !world.admitsUpload payload.length then
        ⟨table, [], .ok .withheld⟩
      else
        match world.sendTo session.socket payload address with
        | .error error => ⟨table, [], .error error⟩
        | .ok () =>
          ⟨table, [.sent session.socket payload address, .recorded payload.length 0], .ok .relayed⟩

def handleUdpPacket (mode : UdpReplyMode) (table : Associations)
    (world : QuicWorld) (packet : UdpPacket) : HandledUdp Associations :=
  if !packet.isWhole then ⟨table, [], .ok .withheld⟩
  else
    match packet.target with
    | none => ⟨table, [], .ok .unaddressed⟩
    | some target =>
      match world.matching.decideUdp world.routes target packet.bytes with
      | .block => ⟨table, [], .ok .blocked⟩
      | .unsupportedOutbound tag =>
        ⟨table, [], .error ⟨.unsupported, "outbound route " ++ tag ++ " is not implemented"⟩⟩
      | .outbound outbound =>
        -- what comes back is not held against a limit here
        { world with admitsDownload := fun _ => true }.relayOutbound table
          outbound target packet.bytes
      | .direct => relayDirect mode table world packet.key.1 target packet.bytes

/-- What `read_to_end` says of a stream that is too long or broke off. -/
def streamReadError (world : QuicWorld) (input : List UInt8) : Option IoError :=
  if 64 * 1024 + 512 < input.length then some ⟨.other, "stream too long"⟩
  else world.streamError

/-- `handle_udp_datagrams`, and `handle_unidirectional_commands`, whose input
is a stream; the limits are `UDP_MAX_FRAGMENT_SETS`,
`UDP_MAX_REASSEMBLED_BYTES` and `UDP_FRAGMENT_IDLE_TIMEOUT_MS`. -/
def udpLoop (mode : UdpReplyMode) :
    QuicUdp (UInt16 × UInt16) (Option SocksTarget) Associations where
  readError := match mode with
    | .datagram => fun _ _ => none
    | .uniStream => streamReadError
  limits := ⟨4096, 64 * 1024, 10000⟩
  joining := joinTargets
  fragmentError := fragmentError
  parse input := (parseUdpCommand input).map fun
    | .packet packet => .inl packet
    | .dissociate assocId => .inr (Associations.dissociate assocId)
    | .heartbeat => .inr id
  handle := handleUdpPacket mode
  swallows := false
  cleanup table _ := table

/-- The packet is whole and lacks a target, or a route blocks its target. -/
def Dropped (world : QuicWorld) (packet : UdpPacket) : Prop :=
  packet.isWhole = true ∧ ∀ target, packet.target = some target →
    world.matching.decideUdp world.routes target packet.bytes = .block

variable {world : QuicWorld} {packet : UdpPacket} {mode : UdpReplyMode}
  {table : Associations} {handling : UdpHandling}

theorem handleUdpPacket_of_dropped (hdropped : Dropped world packet) :
    (handleUdpPacket mode table world packet).table = table ∧
      ∃ handling, (handleUdpPacket mode table world packet).result = .ok handling := by
  rw [handleUdpPacket, if_neg (by simp [hdropped.1])]
  split
  · exact ⟨rfl, _, rfl⟩
  next target htarget =>
    rw [hdropped.2 target htarget]
    exact ⟨rfl, _, rfl⟩

theorem dropped_of_fault (hwhole : packet.isWhole = true)
    (hres : (handleUdpPacket mode table world packet).result = .ok handling)
    (hfault : (UdpOutcome.handled handling).isFault = true) : Dropped world packet := by
  refine ⟨hwhole, fun target htarget => ?_⟩
  rw [handleUdpPacket, if_neg (by simp [hwhole]), htarget] at hres
  dsimp only at hres
  split at hres
  · assumption
  · contradiction
  next outbound _ =>
    obtain ⟨-, hheld | hrelayed | ⟨error, herror⟩⟩ :=
      { world with admitsDownload := fun _ => true }.relayOutbound_spec table
        outbound target packet.bytes
    · rw [hheld] at hres
      rw [← Except.ok.inj hres] at hfault
      contradiction
    · rw [hrelayed] at hres
      rw [← Except.ok.inj hres] at hfault
      contradiction
    · rw [herror] at hres
      contradiction
  · rw [relayDirect] at hres
    split at hres
    · contradiction
    split at hres
    · contradiction
    split at hres
    · rw [← Except.ok.inj hres] at hfault
      contradiction
    split at hres
    · contradiction
    · rw [← Except.ok.inj hres] at hfault
      contradiction

end Tuic

end KeliCore
