import TrustIX.WordBitmap
import TrustIX.ReplayWindow
import TrustIX.TaggedRing
import TrustIX.KernelReplay
import TrustIX.FixedFrames
import TrustIX.Fallible
import TrustIX.SecureHandshake
import TrustIX.Base64
import TrustIX.JsonText
import TrustIX.GoTime
import TrustIX.GoJson
import TrustIX.GoText
import TrustIX.ConfigEvent
import TrustIX.HashChain
import TrustIX.ConfigStore
import TrustIX.Pki
import TrustIX.TrustPolicy
import TrustIX.EventVerify
import TrustIX.AdminBinding
import TrustIX.LogVerify
import TrustIX.Daemon
import TrustIX.Membership
import TrustIX.Runs
import TrustIX.Gossip
import TrustIX.Admission
import TrustIX.EndpointGrants
import TrustIX.LocalMutation
import TrustIX.DesiredApply
import TrustIX.Lifecycle
import TrustIX.Advertised
import TrustIX.Genesis
import TrustIX.Restart
import TrustIX.TrustRequests
import TrustIX.BigEndian
import TrustIX.SecureRecord
import TrustIX.InPlaceFilter
import TrustIX.SecureSession
import TrustIX.SecureReceive
import TrustIX.SecureDelivery
import TrustIX.Tickets
import TrustIX.SecureSenders
import TrustIX.TunnelNegotiation
import TrustIX.Rejoin
import TrustIX.Archive
import TrustIX.FileSwap
import TrustIX.ArchiveFiles
import TrustIX.ArchiveRestore
import TrustIX.CursorPages
import TrustIX.MemberPages
import TrustIX.CarrierFrame
import TrustIX.Collector
import TrustIX.RangeSet
import TrustIX.CarrierReassembly
import TrustIX.ByteEdit
import TrustIX.InternetChecksum
import TrustIX.FlowGroups
import TrustIX.Ipv4Packet
import TrustIX.GsoPacket
import TrustIX.GsoCoalesce
import TrustIX.Segmentation
import TrustIX.AddressBlock
import TrustIX.AdminLockout
import TrustIX.Netip
import TrustIX.SessionSend
import TrustIX.KeyedTable
import TrustIX.LeaseMessage
import TrustIX.AddressTranslation
import TrustIX.TranslationReplies
import TrustIX.DeviceLeases
import TrustIX.Stateful
import TrustIX.KernelSync
import TrustIX.FlowMirror
import TrustIX.ProvisionTokens
import TrustIX.BatchPipeline
import TrustIX.BatchFlusher
import TrustIX.BatchOrder
import TrustIX.SegmentHeaders
import TrustIX.ForwardBatch
import TrustIX.HelloCodec
import TrustIX.RuntimeReconcile
import TrustIX.BatchRecordCodec
import TrustIX.MergedHeaders
import TrustIX.TranslationLimits
import TrustIX.RejectReplies
import TrustIX.CapabilityMonitor
import TrustIX.PrefixOwners
import TrustIX.RouteTable
