import OpenPulse.Runs
import OpenPulse.OtaRate
import OpenPulse.OtaLockstep
import OpenPulse.SharedPtt
import OpenPulse.PttSequential
import OpenPulse.PttSchedule
import OpenPulse.Tables
import OpenPulse.Lru
import OpenPulse.ByteCodec
import OpenPulse.Sar
import OpenPulse.SarRoundTrip
import OpenPulse.SarPoison
import OpenPulse.Signing
import OpenPulse.Wire
import OpenPulse.Peers
import OpenPulse.Relay
import OpenPulse.RelayFlood
import OpenPulse.RelayReplay
import OpenPulse.Payloads
import OpenPulse.Routes
import OpenPulse.RouteTables
import OpenPulse.RouteNetwork
import OpenPulse.Queries
import OpenPulse.Mesh
import OpenPulse.MeshForward
import OpenPulse.MeshNonce
import OpenPulse.MeshDiscovery
import OpenPulse.MeshLine
import OpenPulse.MeshBroadcast
import OpenPulse.RouteUpkeep
import OpenPulse.Bandplan
import OpenPulse.Qsy
import OpenPulse.QsyAgreement
import OpenPulse.Bitmap
import OpenPulse.FxWire
import OpenPulse.FxSessions
import OpenPulse.FxProtocol
import OpenPulse.Compression
import OpenPulse.FileBlocks
import OpenPulse.FileDelivery
import OpenPulse.Downloads
import OpenPulse.Resume
import OpenPulse.Reads
import OpenPulse.WireCodec
import OpenPulse.PayloadReads
import OpenPulse.PayloadCodecs
import OpenPulse.Hex
import OpenPulse.Hpx
import OpenPulse.HpxRuns
import OpenPulse.QsyRetune
import OpenPulse.Bodies
import OpenPulse.Trust
import OpenPulse.HandshakeWire
import OpenPulse.Handshake
import OpenPulse.HandshakeCodec
import OpenPulse.HandshakeAgreement
import OpenPulse.PqHandshake
import OpenPulse.PqCodec
import OpenPulse.PqBinding
import OpenPulse.B2f
import OpenPulse.B2fFrames
import OpenPulse.B2fProposals
import OpenPulse.B2fExchange
import OpenPulse.KeyDerivation
import OpenPulse.Json
import OpenPulse.RemoteControl
import OpenPulse.Selects
import OpenPulse.Kiss
import OpenPulse.KissClient
import OpenPulse.ArdopPorts
import OpenPulse.PendingBytes
import OpenPulse.ArdopTimeout
import OpenPulse.ArdopPtt
import OpenPulse.Repeater
import OpenPulse.PrefixCode
import OpenPulse.Words
import OpenPulse.Js8
import OpenPulse.Js8Frames
import OpenPulse.Rendezvous
import OpenPulse.RendezvousCuts
import OpenPulse.RendezvousAssembler
import OpenPulse.RendezvousOver
import OpenPulse.Buckets
import OpenPulse.Hint
import OpenPulse.HintAssembler
import OpenPulse.HintOver
import OpenPulse.Discovery
import OpenPulse.RendezvousSession
import OpenPulse.Ladders
import OpenPulse.OtaBounds
import OpenPulse.OtaVerdicts
import OpenPulse.RatePolicy
import OpenPulse.RateLevels
import OpenPulse.ArqBandwidth
import OpenPulse.OtaDecode
import OpenPulse.OtaEvidence
import OpenPulse.OtaClimb
import OpenPulse.RateHold
import OpenPulse.Engine
import OpenPulse.SessionGate
import OpenPulse.KeyedTx
import OpenPulse.StationId
import OpenPulse.DaemonLink
import OpenPulse.RefusedDial
import OpenPulse.HalfHandshake
import OpenPulse.LinkGuard
import OpenPulse.DiscoverySlots
import OpenPulse.DiscoveryTick
import OpenPulse.DiscoveryHome
import OpenPulse.DiscoveryHandoff
import OpenPulse.DiscoveryAccept
import OpenPulse.SarState
import OpenPulse.Patches
import OpenPulse.WindowArq
import OpenPulse.BitPacking
import OpenPulse.FrameCodec
import OpenPulse.CompressionLimit
import OpenPulse.Trellis
import OpenPulse.Convolutional
import OpenPulse.Conv
import OpenPulse.SoftViterbi
import OpenPulse.Binary32
import OpenPulse.Peg
import OpenPulse.Ldpc
import OpenPulse.ReedSolomon
import OpenPulse.Fec
import OpenPulse.Strides
import OpenPulse.Interleave
import OpenPulse.PeerCaches
import OpenPulse.QueryTracking
import OpenPulse.Scans
import OpenPulse.BestRoutes
import OpenPulse.RouteScores
import OpenPulse.BlockBounds
import OpenPulse.Jsc
import OpenPulse.Js8Message
import OpenPulse.BinaryLinear
import OpenPulse.Ldpc174
import OpenPulse.Js8Tones
import OpenPulse.Js8Texts
import OpenPulse.Utf8Cuts
import OpenPulse.FxCodec
import OpenPulse.FxReader
import OpenPulse.Js8Callsigns
import OpenPulse.Lines
import OpenPulse.WlMessages
import OpenPulse.Quadratic
import OpenPulse.Turbo
import OpenPulse.BestOf
import OpenPulse.TurboDecode
import OpenPulse.Ax25
import OpenPulse.Gregorian
import OpenPulse.Calendars
import OpenPulse.BurstAfc
import OpenPulse.FreeRs
import OpenPulse.SoftCoding
import OpenPulse.OtaSend
import OpenPulse.AckScan
import OpenPulse.ScanPlanner
import OpenPulse.QsyLine
import OpenPulse.Scramble
import OpenPulse.FileQuota
import OpenPulse.PanelLink
import OpenPulse.PkiBundles
import OpenPulse.PkiReplay
import OpenPulse.AckWire
import OpenPulse.BurstPlan
import OpenPulse.FrameFlips
