import KeliCore.Accepting
import KeliCore.AddonFlow
import KeliCore.Aes128Cfb
import KeliCore.AuthId
import KeliCore.Backoff
import KeliCore.Bandwidth
import KeliCore.Billing
import KeliCore.Credentials
import KeliCore.CutOff
import KeliCore.DeviceLimit
import KeliCore.Dns
import KeliCore.DnsQueries
import KeliCore.FailedStart
import KeliCore.Http2HalfClose
import KeliCore.ListenerBinds
import KeliCore.MieruSessions
import KeliCore.PendingTraffic
import KeliCore.QuicFaults
import KeliCore.RealityFallback
import KeliCore.Rebind
import KeliCore.ReservationTargets
import KeliCore.Revision
import KeliCore.Revocable
import KeliCore.StreamBilling
import KeliCore.TlsWriting
import KeliCore.UdpBilling
import KeliCore.UdpFaults
import KeliCore.UdpReplies
import KeliCore.VectoredWrite
import KeliCore.VisionPolling
import KeliCore.WebSocketCancel
import KeliCore.WebSocketUdpRelay
