import P2PNetwork.Core.ByteAccess
import P2PNetwork.Core.Endian
import P2PNetwork.Core.Readers
import P2PNetwork.Network.VersionDecoder
import P2PNetwork.Network.Wire
import P2PNetwork.Network.Events
import P2PNetwork.Network.WireRoundTrip
import P2PNetwork.Network.MappedAddress
import P2PNetwork.Network.TaskWrite
import P2PNetwork.Network.TaskRead
import P2PNetwork.Network.Framing
import P2PNetwork.Network.VersionLayout
import P2PNetwork.Network.FrameExtent
import P2PNetwork.Network.FrameChecksum
import P2PNetwork.Network.FrameParser
import P2PNetwork.Network.StreamSoundness
import P2PNetwork.Network.ReceiveBuffer
import P2PNetwork.Network.FrameBacklog
import P2PNetwork.Network.PendingFrames
import P2PNetwork.Network.CutAgreement
import P2PNetwork.Core.Handler
import P2PNetwork.Core.EventLoop
import P2PNetwork.Network.Segmentation
import P2PNetwork.Core.FiniteTable
import P2PNetwork.Protocol.HandleMessage
import P2PNetwork.Protocol.ThreadProtocol
import P2PNetwork.Protocol.HandshakeHistory
import P2PNetwork.Protocol.HandleOutcome
import P2PNetwork.Protocol.HandshakeFlags
import P2PNetwork.Protocol.HandshakeSafety
import P2PNetwork.Protocol.PeerEntry
import P2PNetwork.Protocol.Isolation
import P2PNetwork.Protocol.FlaggedPeer
import P2PNetwork.Protocol.HandlingErrors
import P2PNetwork.Protocol.Links
import P2PNetwork.Protocol.LinkStages
import P2PNetwork.Protocol.HandshakeAgreement
import P2PNetwork.Protocol.HandshakeProgress
import P2PNetwork.Protocol.HandshakeDialogue
import P2PNetwork.Network.Peer
import P2PNetwork.Network.PeerTasks
import P2PNetwork.Network.PeerShutdown
import P2PNetwork.Network.PeerDelivery
import P2PNetwork.Network.PeerVerdict
import P2PNetwork.Network.PeerOutbound
import P2PNetwork.Network.PeerFlush
import P2PNetwork.Network.PeerInbound
import P2PNetwork.Network.Connection
import P2PNetwork.Network.PeerManager
import P2PNetwork.Network.PeerRegistry
import P2PNetwork.Network.TaskIds
import P2PNetwork.Network.ThreadNetwork
import P2PNetwork.Runtime.System
import P2PNetwork.Runtime.Components
import P2PNetwork.Runtime.Shutdown
import P2PNetwork.Runtime.Deadlock
import P2PNetwork.Runtime.Ownership
import P2PNetwork.Runtime.AttributionInvariant
import P2PNetwork.Runtime.BlockingSteps
import P2PNetwork.Runtime.PeerCounter
import P2PNetwork.Runtime.Reports
import P2PNetwork.Runtime.ConnectionRecords
import P2PNetwork.Runtime.ReportOrder
import P2PNetwork.Runtime.AttributionSteps
import P2PNetwork.Runtime.Attribution
import P2PNetwork.Runtime.Process
import P2PNetwork.Runtime.NetworkVerdict
import P2PNetwork.Runtime.NetworkProjection
import P2PNetwork.Runtime.DeadHalf
import P2PNetwork.Runtime.ThreadResults
import P2PNetwork.Runtime.ExitCause
import P2PNetwork.Runtime.ShutdownOrders
import P2PNetwork.Runtime.SpawnedTasks
import P2PNetwork.Runtime.Work
import P2PNetwork.Runtime.Termination
import P2PNetwork.Runtime.PeerOrders
import P2PNetwork.Runtime.ThreadOrders
import P2PNetwork.Runtime.Rest
import P2PNetwork.Runtime.Hang
import P2PNetwork.Runtime.Orphans
import P2PNetwork.Runtime.ConnectionIds
import P2PNetwork.Runtime.Dispatch
import P2PNetwork.Runtime.Arrivals
import P2PNetwork.Runtime.Entries
import P2PNetwork.Runtime.Conversations
import P2PNetwork.Runtime.ConversationSteps
import P2PNetwork.Runtime.Host
import P2PNetwork.Runtime.Hosted
import P2PNetwork.Runtime.Cluster
import P2PNetwork.Runtime.Agreement
