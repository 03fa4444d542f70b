/-
The packets of the UDP relays: the SOCKS header that SOCKS5 and Mieru share,
the frames in which Mieru sends it over a stream, and the packets of Trojan.
-/
import KeliCore.ShadowsocksUdp

namespace KeliCore

def atypIpv4 : UInt8 := 0x01
def atypDomain : UInt8 := 0x03
def atypIpv6 : UInt8 := 0x04

/-- What the two readers of the header say about it. -/
structure SocksUdpTexts where
  header : String
  ipv4 : String
  ipv6 : String
  domainLength : String
  domain : String
  utf8 : String
  port : String

def takeExact (len : Nat) (message : String) (input : List UInt8) :
    Except IoError (List UInt8 × List UInt8) :=
  if input.length < len then .error ⟨.unexpectedEof, message⟩
  else .ok (input.take len, input.drop len)

namespace SocksUdpTexts

variable (texts : SocksUdpTexts)

def parseHost (kind : UInt8) (input : List UInt8) : Except IoError (String × List UInt8) :=
  if kind = atypIpv4 then do
    let (octets, rest) ← takeExact 4 texts.ipv4 input
    return ((IpAddr.v4 (.ofNat 32 (beNat octets))).display, rest)
  else if kind = atypIpv6 then do
    let (octets, rest) ← takeExact 16 texts.ipv6 input
    return ((IpAddr.v6 (.ofNat 128 (beNat octets))).display, rest)
  else if kind = atypDomain then do
    let (len, rest) ← takeExact 1 texts.domainLength input
    let (name, rest) ← takeExact (beNat len) texts.domain rest
    match String.fromUTF8? ⟨name.toArray⟩ with
    | some host => return (host, rest)
    | none => throw ⟨.invalidData, texts.utf8⟩
  else .error ⟨.invalidData, "unsupported socks udp address type"⟩

def parse : List UInt8 → Except IoError (SocksTarget × List UInt8)
  | first :: second :: fragment :: kind :: rest =>
    if first ≠ 0 ∨ second ≠ 0 then .error ⟨.invalidData, texts.header⟩
    else if fragment ≠ 0 then
      .error ⟨.unsupported, "fragmented socks udp packets are not supported"⟩
    else do
      let (host, rest) ← texts.parseHost kind rest
      let (port, rest) ← takeExact 2 texts.port rest
      return ({ host, port := .ofNat (beNat port) }, rest)
  | _ => .error ⟨.invalidData, texts.header⟩

end SocksUdpTexts

def parseUdpRequest : List UInt8 → Except IoError (SocksTarget × List UInt8) :=
  SocksUdpTexts.parse
    { header := "invalid socks udp request header"
      ipv4 := "truncated socks udp ipv4 address"
      ipv6 := "truncated socks udp ipv6 address"
      domainLength := "truncated socks udp domain length"
      domain := "truncated socks udp domain"
      utf8 := "invalid utf-8"
      port := "truncated socks udp port" }

def parseSocksUdpPacket : List UInt8 → Except IoError (SocksTarget × List UInt8) :=
  SocksUdpTexts.parse
    { header := "invalid socks udp packet header"
      ipv4 := "short socks udp ipv4 address"
      ipv6 := "short socks udp ipv6 address"
      domainLength := "short socks udp domain length"
      domain := "short socks udp domain"
      utf8 := "invalid socks udp domain"
      port := "short socks udp port" }

def encodeUdpResponse (source : SocketAddr) (payload : List UInt8) : List UInt8 :=
  [0, 0, 0] ++ encodeTarget source ++ payload

def mieruUdpMarkerStart : UInt8 := 0x00
def mieruUdpMarkerEnd : UInt8 := 0xff

/-- `take_mieru_udp_frame`: the frame, if it is complete, and the buffer that is
left.  Bytes before a marker are dropped. -/
def takeMieruUdpFrame (buffer : List UInt8) : Except IoError (Option (List UInt8)) × List UInt8 :=
  let buffer := buffer.dropWhile (· != mieruUdpMarkerStart)
  if buffer.length < 4 then (.ok none, buffer)
  else
    let len := beNat ((buffer.drop 1).take 2)
    let total := len + 4
    if buffer.length < total then (.ok none, buffer)
    else if buffer.getD (total - 1) 0 ≠ mieruUdpMarkerEnd then
      (.error ⟨.invalidData, "invalid mieru udp frame marker"⟩, buffer)
    else (.ok (some ((buffer.drop 3).take len)), buffer.drop total)

def encodeMieruUdpFrame (packet : List UInt8) : Except IoError (List UInt8) :=
  if packet.length < 65536 then
    .ok (mieruUdpMarkerStart :: toBeBytes (.ofNat packet.length) ++ packet ++ [mieruUdpMarkerEnd])
  else .error ⟨.invalidInput, "mieru udp packet is too large"⟩

/-- The host of `parse_trojan_target_from_bytes` and how many bytes it took;
nothing, if there are too few. -/
def parseTrojanHost : List UInt8 → Except IoError (Option (String × Nat))
  | [] => .ok none
  | kind :: rest =>
    if kind = atypIpv4 then
      if rest.length < 4 then .ok none
      else
        .ok (some ((IpAddr.v4 (.ofNat 32 (beNat (rest.take 4)))).display, 5))
    else if kind = atypDomain then
      match rest with
      | [] => .ok none
      | len :: rest =>
        if rest.length < len.toNat then .ok none
        else
          match String.fromUTF8? ⟨(rest.take len.toNat).toArray⟩ with
          | some host => .ok (some (host, 2 + len.toNat))
          | none => .error ⟨.invalidData, "invalid domain"⟩
    else if kind = atypIpv6 then
      if rest.length < 16 then .ok none
      else
        .ok (some ((IpAddr.v6 (.ofNat 128 (beNat (rest.take 16)))).display, 17))
    else .error ⟨.invalidData, "unsupported trojan address type"⟩

def parseTrojanTargetFromBytes (bytes : List UInt8) : Except IoError (Option (SocksTarget × Nat)) :=
  match parseTrojanHost bytes with
  | .error error => .error error
  | .ok none => .ok none
  | .ok (some (host, offset)) =>
    if bytes.length < offset + 2 then .ok none
    else
      let port := .ofNat (beNat ((bytes.drop offset).take 2))
      .ok (some ({ host, port }, offset + 2))

def parseTrojanUdpPacketFromBuffer (buffer : List UInt8) :
    Except IoError (Option (SocksTarget × List UInt8) × List UInt8) :=
  match parseTrojanTargetFromBytes buffer with
  | .error error => .error error
  | .ok none => .ok (none, buffer)
  | .ok (some (target, targetLen)) =>
    if buffer.length < targetLen + 4 then .ok (none, buffer)
    else
      let payloadLen := beNat ((buffer.drop targetLen).take 2)
      if (buffer.drop (targetLen + 2)).take 2 ≠ [13, 10] then
        .error ⟨.invalidData, "invalid trojan udp crlf"⟩
      else if buffer.length < targetLen + 4 + payloadLen then
        .ok (none, buffer)
      else
        let payload := (buffer.drop (targetLen + 4)).take payloadLen
        .ok (some (target, payload), buffer.drop (targetLen + 4 + payloadLen))

/-- `encode_trojan_udp_packet`; the length is cut to its last two bytes. -/
def encodeTrojanUdpPacket (source : SocketAddr) (payload : List UInt8) : List UInt8 :=
  encodeTarget source ++ toBeBytes (.ofNat payload.length) ++ [13, 10] ++ payload

/-- A frame is taken whole, whatever follows it, and before its last byte has
come nothing is taken or dropped. -/
theorem mieru_frame_taken_whole {packet frame : List UInt8}
    (hframe : encodeMieruUdpFrame packet = .ok frame)
    (rest : List UInt8) : takeMieruUdpFrame (frame ++ rest) = (.ok (some packet), rest) ∧
      ∀ count < frame.length,
        takeMieruUdpFrame (frame.take count) = (.ok none, frame.take count) := by
  rw [encodeMieruUdpFrame] at hframe
  split at hframe
  swap
  · contradiction
  cases hframe
  have hlen : beNat (toBeBytes (.ofNat packet.length)) = packet.length := by
    simp [beNat, toBeBytes]
    omega
  constructor
  · simp [takeMieruUdpFrame, toBeBytes, mieruUdpMarkerStart, mieruUdpMarkerEnd] at hlen ⊢
    simp [hlen]
    omega
  · intro count hcount
    -- a cut before the fourth byte leaves no length to read
    rcases count with _ | _ | _ | count
    all_goals simp [takeMieruUdpFrame, toBeBytes, mieruUdpMarkerStart] at hlen hcount ⊢
    rw [hlen]
    split <;> simp_all

theorem mieru_frame_taken_whole_two :
    takeMieruUdpFrame [0, 0, 2, 7, 8, 255, 0] = (.ok (some [7, 8]), [0]) :=
  (@mieru_frame_taken_whole [7, 8] [0, 0, 2, 7, 8, 255] rfl [0]).1

end KeliCore
