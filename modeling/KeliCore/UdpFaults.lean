/-
What ends the UDP relay of a Shadowsocks inbound: every error of a request or
a reply that the loop does not swallow.
-/
import KeliCore.ShadowsocksUdp

namespace KeliCore

namespace UdpRelay

end UdpRelay

namespace ShadowsocksServer

variable {server : ShadowsocksServer} {relay : UdpRelay} {turn : UdpTurn}
  {client source : SocketAddr} {user : CoreUser} {error : IoError}
  {request : ShadowsocksUdpRequest} {outbound : Option OutboundConfig}
  {packet : List UInt8} {service : UdpService}

end ShadowsocksServer

namespace Sample

/-- A cipher that shows the password before the text. -/
def openCrypto : ShadowsocksCrypto where
  encrypt _ password _ text := some (Text.bytes password ++ text ++ List.replicate 16 0)
  decrypt _ password _ text :=
    if (Text.bytes password).isPrefixOf text then
      some ((text.drop (Text.bytes password).length).take
        (text.length - (Text.bytes password).length - 16))
    else none

def shadowsocks : ShadowsocksServer := ⟨"a", .aes128Gcm, openCrypto⟩

def resolver : SocketAddr := ⟨.v4 0x08080808, 53⟩

end Sample

open Sample

end KeliCore
