import XtpRs.Lib.Run
import XtpRs.Lib.Except
import XtpRs.Lib.Guarded
import XtpRs.Lib.HashMap
import XtpRs.Lib.TtlCache
import XtpRs.Lib.Buffer
import XtpRs.Lib.Overlay
import XtpRs.Lib.SortedSearch
import XtpRs.Lib.Atomic
import XtpRs.Lib.Sequential
import XtpRs.Lib.Interference
import XtpRs.Lib.StreamProgram
import XtpRs.Lib.WeightedChoice
import XtpRs.Lib.Words
import XtpRs.Lib.Digits
import XtpRs.Lib.Awk
import XtpRs.Lib.Decimal
import XtpRs.Lib.Rounding
import XtpRs.Lib.Json
import XtpRs.Lib.Ere
import XtpRs.Lib.RuleChains
import XtpRs.Net.Addr
import XtpRs.Net.Text
import XtpRs.Net.Socks5Udp
import XtpRs.Net.Socks5UdpPacket
import XtpRs.Net.Socks5Connect
import XtpRs.Net.Socks5Handshake
import XtpRs.Net.Socks5Associate
import XtpRs.Sniff.Udp
import XtpRs.Sniff.Tls
import XtpRs.Sniff.Quic.Varint
import XtpRs.Sniff.Quic.Reassembly
import XtpRs.Sniff.Quic.ReassemblyWrites
import XtpRs.Sniff.Quic.Frames
import XtpRs.Sniff.Quic.Packet
import XtpRs.Sniff.Quic.InitialPacket
import XtpRs.Sniff.Quic.ClientHello
import XtpRs.Sniff.Quic.Unauthenticated
import XtpRs.Sniff.ServerNameSums
import XtpRs.Sniff.Quic.FrameBounds
import XtpRs.Sniff.Quic.VarintRead
import XtpRs.Sniff.Quic.PacketBounds
import XtpRs.Sniff.Quic.Targets
import XtpRs.Sniff.Tcp
import XtpRs.Sniff.TlsRecords
import XtpRs.Sniff.Http
import XtpRs.Sniff.Segmentation
import XtpRs.Sniff.Hosts
import XtpRs.Sniff.ServerName
import XtpRs.Sniff.ServerNameBounds
import XtpRs.Sniff.RecordFragments
import XtpRs.Sniff.HttpRequest
import XtpRs.Sniff.Patience
import XtpRs.Udp.Session
import XtpRs.Udp.KeyLock
import XtpRs.Udp.Runtime
import XtpRs.Udp.Effect
import XtpRs.Udp.SingleFlight
import XtpRs.Udp.Tracking
import XtpRs.Udp.Retire
import XtpRs.Udp.Pending
import XtpRs.Udp.Handler
import XtpRs.Udp.Accounting
import XtpRs.Udp.PortForward
import XtpRs.Udp.Fifo
import XtpRs.Udp.FakeManager
import XtpRs.Udp.PendingBounds
import XtpRs.Udp.ReplyLoop
import XtpRs.Upstream.Set
import XtpRs.Upstream.WeightedPick
import XtpRs.Upstream.SwitchTolerance
import XtpRs.Upstream.Score
import XtpRs.Config.Validate
import XtpRs.Config.Groups
import XtpRs.Upstream.ScoreRange
import XtpRs.Upstream.ScoreDecay
import XtpRs.Upstream.RelativeTick
import XtpRs.Upstream.RelativeScope
import XtpRs.Upstream.Penalty
import XtpRs.Upstream.PenaltyLasts
import XtpRs.Upstream.ScoreMonotone
import XtpRs.Upstream.PickStats
import XtpRs.Upstream.Registry
import XtpRs.Upstream.ScoreTick
import XtpRs.Routing.Domain
import XtpRs.Routing.DomainRules
import XtpRs.Routing.IpSet
import XtpRs.Routing.Direct
import XtpRs.Routing.Cidr
import XtpRs.Routing.ForcedIps
import XtpRs.Routing.Groups
import XtpRs.Routing.Order
import XtpRs.Config.Startup
import XtpRs.Config.Listeners
import XtpRs.Tcp.Connection
import XtpRs.Tcp.Failover
import XtpRs.Tcp.Relay
import XtpRs.Tcp.RelayDeadline
import XtpRs.Tcp.CacheCapacity
import XtpRs.Tcp.CacheAge
import XtpRs.Tcp.Path
import XtpRs.Udp.Path
import XtpRs.Reload.Generations
import XtpRs.Reload.RegistryGrowth
import XtpRs.Reload.Service
import XtpRs.Reload.Shutdown
import XtpRs.Scripts.PortList
import XtpRs.Scripts.Ip6Ranges
import XtpRs.Scripts.Capture
import XtpRs.Scripts.CapturePaths
import XtpRs.Scripts.SetupOrder
import XtpRs.Scripts.Ip4Cidr
import XtpRs.Scripts.Ip4Ranges
import XtpRs.Scripts.RouteFiles
import XtpRs.Scripts.RouteUpdates
import XtpRs.Scripts.StatsReport
import XtpRs.Upstream.StatsListener
