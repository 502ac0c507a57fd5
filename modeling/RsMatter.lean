import RsMatter.Machine
import RsMatter.Bytes
import RsMatter.BoundedVec
import RsMatter.KeyedList
import RsMatter.Prog
import RsMatter.Panic
import RsMatter.Basic
import RsMatter.Dedup
import RsMatter.Headers
import RsMatter.Mrp
import RsMatter.Session
import RsMatter.SessionSteps
import RsMatter.NonceReuse
import RsMatter.ChangedAttrs
import RsMatter.Subscriptions
import RsMatter.LostChange
import RsMatter.SubRemoval
import RsMatter.Tlv
import RsMatter.TlvRead
import RsMatter.TlvElement
import RsMatter.TlvRoundTrip
import RsMatter.TlvAccess
import RsMatter.TlvPanic
import RsMatter.Events
import RsMatter.EventRings
import RsMatter.Acl
import RsMatter.Fabric
import RsMatter.Node
import RsMatter.BinarySearch
import RsMatter.PathExpander
import RsMatter.ExpandPanic
import RsMatter.ImRequests
import RsMatter.PathExpansion
import RsMatter.PathRecovery
import RsMatter.FailSafe
import RsMatter.SessionTable
import RsMatter.Device
import RsMatter.Effects
import RsMatter.Tables
import RsMatter.Expiry
import RsMatter.Rollback
import RsMatter.StaleSession
import RsMatter.PacketDecode
import RsMatter.SessionKeys
import RsMatter.RingBuf
import RsMatter.BtpPacket
import RsMatter.BtpSession
import RsMatter.BtpSegments
import RsMatter.BtpLink
import RsMatter.BtpSafety
import RsMatter.BtpFraming
import RsMatter.Asn1
import RsMatter.Cert
import RsMatter.CertDer
import RsMatter.CertPanic
import RsMatter.CertIdentity
import RsMatter.SessionSlots
import RsMatter.ExpiredSession
import RsMatter.Exchanges
import RsMatter.ExchangeOwners
import RsMatter.ExchangeIds
import RsMatter.ReliableSend
import RsMatter.PacketBuffers
import RsMatter.Pase
import RsMatter.PaseGuesses
import RsMatter.PaseSessions
import RsMatter.SubTables
import RsMatter.ReportChunks
import RsMatter.Reporter
import RsMatter.ChunkLoops
import RsMatter.ChunkedReports
import RsMatter.NocProtocol
import RsMatter.Credentials
import RsMatter.Persistence
import RsMatter.Restart
import RsMatter.RxReplies
import RsMatter.SoundSessions
import RsMatter.ReplyChains
import RsMatter.SubscribePaths
import RsMatter.AclIsolation
import RsMatter.FabricTable
import RsMatter.EventNumbers
import RsMatter.EventRetention
import RsMatter.SessionIdentity
import RsMatter.Frames
import RsMatter.Tcp
import RsMatter.TcpReassembly
import RsMatter.TcpAlignment
import RsMatter.RxLoop
import RsMatter.Settings
import RsMatter.SettingsRollback
import RsMatter.ExpandedAccess
import RsMatter.LostFabric
import RsMatter.Mdns
import RsMatter.MdnsQuerier
import RsMatter.MdnsPanic
import RsMatter.MdnsDiscovery
import RsMatter.TlvCodec
import RsMatter.TlvCodecPanic
import RsMatter.TlvCodecRoundTrip
import RsMatter.Wireless
import RsMatter.WirelessStore
import RsMatter.WirelessRuns
import RsMatter.BindingRuns
import RsMatter.Suspension
import RsMatter.WebRtc
import RsMatter.KeyedRows
import RsMatter.WebRtcSessions
import RsMatter.CameraAvStream
import RsMatter.CameraStreams
import RsMatter.PushAvStream
import RsMatter.PushTransports
import RsMatter.ZoneMgmt
import RsMatter.ZoneRuns
import RsMatter.Identify
import RsMatter.DedupWindow
import RsMatter.GroupCounters
import RsMatter.TlvGrammar
import RsMatter.TlvScan
import RsMatter.TlvChecked
import RsMatter.TlvTotal
import RsMatter.TlvIterators
import RsMatter.TlvEncoders
import RsMatter.TlvCopies
import RsMatter.Splice
import RsMatter.Storage
import RsMatter.TlvInPlace
import RsMatter.ReadBuf
import RsMatter.SentHeaders
import RsMatter.PacketCodec
import RsMatter.PacketRoundTrip
import RsMatter.Text
import RsMatter.Numeral
import RsMatter.PairingCode
import RsMatter.Base38
import RsMatter.ChangeHistory
import RsMatter.QrCode
import RsMatter.GlobalLists
import RsMatter.GroupTable
import RsMatter.Backoff
import RsMatter.Eviction
import RsMatter.Revocation
import RsMatter.Signatures
import RsMatter.CertChain
import RsMatter.Spake2P
import RsMatter.PaseHandshake
