import WebPlayer.Core.Lts
import WebPlayer.Core.Bytes
import WebPlayer.Core.Faults
import WebPlayer.Core.SlotMap
import WebPlayer.Core.Framing
import WebPlayer.Core.Search
import WebPlayer.Core.Lines
import WebPlayer.Core.Double
import WebPlayer.Core.Memory
import WebPlayer.Core.Ledger
import WebPlayer.Core.Throws
import WebPlayer.Core.Consumer
import WebPlayer.Core.Scan
import WebPlayer.Core.Segments
import WebPlayer.Core.StdSort
import WebPlayer.Core.Backlog
import WebPlayer.Core.Monitor
import WebPlayer.Core.Laps
import WebPlayer.Core.BitReader
import WebPlayer.Core.Json
import WebPlayer.L1Encoding.WebSocketFrame
import WebPlayer.L1Encoding.WebSocketFormat
import WebPlayer.L1Encoding.FrameEncoder
import WebPlayer.L1Encoding.FrameParser
import WebPlayer.L1Encoding.ParserBounds
import WebPlayer.L1Encoding.EncodedFrames
import WebPlayer.L1Encoding.ForwardCompat
import WebPlayer.L1Encoding.LayerPositions
import WebPlayer.L1Encoding.BitstreamReader
import WebPlayer.L1Encoding.EmulationPrevention
import WebPlayer.L1Encoding.SpsParser
import WebPlayer.L1Encoding.ExpGolomb
import WebPlayer.L1Encoding.SpsSyntax
import WebPlayer.L1Encoding.H264Sps
import WebPlayer.L1Encoding.H265Sps
import WebPlayer.L1Encoding.TruncatedSps
import WebPlayer.L2Machine.FragmentSlots
import WebPlayer.L2Machine.Reassembler
import WebPlayer.L2Machine.PieceSlots
import WebPlayer.L2Machine.TableInvariant
import WebPlayer.L2Machine.TableSteps
import WebPlayer.L2Machine.HalfBuilt
import WebPlayer.L2Machine.Eviction
import WebPlayer.L2Machine.FrameLimits
import WebPlayer.L2Machine.ExtValidity
import WebPlayer.L3Protocol.Interleaving
import WebPlayer.L3Protocol.InOrder
import WebPlayer.L3Protocol.LossOrder
import WebPlayer.L3Protocol.Loss
import WebPlayer.L3Protocol.Session
import WebPlayer.L3Protocol.UpgradeKey
import WebPlayer.L3Protocol.Negotiation
import WebPlayer.L3Protocol.FrameLoop
import WebPlayer.L3Protocol.Chunking
import WebPlayer.L3Protocol.Closing
import WebPlayer.L3Protocol.Transcript
import WebPlayer.L3Protocol.TlsServer
import WebPlayer.L3Protocol.TlsInput
import WebPlayer.L4App.DataBufferQueue
import WebPlayer.L4App.QueueLimits
import WebPlayer.L4App.QueueBooks
import WebPlayer.L4App.VideoDecoder
import WebPlayer.L4App.DecoderWrapper
import WebPlayer.L4App.DecoderWasm
import WebPlayer.L4App.DecoderAnswers
import WebPlayer.L4App.StreamInstance
import WebPlayer.L4App.StaleSockets
import WebPlayer.L4App.StreamData
import WebPlayer.L4App.DecodeWorker
import WebPlayer.L4App.WorkerBridge
import WebPlayer.L4App.BridgeOrder
import WebPlayer.L4App.WrapperHeap
import WebPlayer.L4App.Media
import WebPlayer.L4App.Playback
import WebPlayer.L4App.MediaCalls
import WebPlayer.L4App.Schedule
import WebPlayer.L4App.NalParser
import WebPlayer.L4App.AccessUnits
import WebPlayer.L4App.CleanUnits
import WebPlayer.L4App.FrameTypes
import WebPlayer.L4App.StreamTimer
import WebPlayer.L4App.AnnexB
import WebPlayer.L4App.Mp4Demuxer
import WebPlayer.L4App.AvSync
import WebPlayer.L4App.AudioClock
import WebPlayer.L4App.AudioSamples
import WebPlayer.L4App.VideoServer
import WebPlayer.L5Server.Views
import WebPlayer.L5Server.EventLoop
import WebPlayer.L5Server.Teardown
import WebPlayer.L5Server.ClosedDescriptors
import WebPlayer.L5Server.SessionStates
import WebPlayer.L5Server.PlaybackClock
import WebPlayer.L5Server.Descriptors
import WebPlayer.L5Server.MediaDelivery
import WebPlayer.L5Server.FrameNumbers
import WebPlayer.L5Server.LossyDelivery
import WebPlayer.L5Server.RawDelivery
