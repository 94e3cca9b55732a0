import PhpWebSocket.Client
import PhpWebSocket.Delivery
import PhpWebSocket.Footprint
import PhpWebSocket.CloseDelivery
import PhpWebSocket.CloseHandshake
import PhpWebSocket.DriverMemory
import PhpWebSocket.Drivers
import PhpWebSocket.FrameCodec
import PhpWebSocket.FrameMemory
import PhpWebSocket.FrameStream
import PhpWebSocket.Heartbeat
import PhpWebSocket.Lifecycle
import PhpWebSocket.ReadBuffer
import PhpWebSocket.ReadLimit
import PhpWebSocket.Readiness
import PhpWebSocket.Reassembly
import PhpWebSocket.Reclaim
import PhpWebSocket.Reencoding
import PhpWebSocket.Rejection
import PhpWebSocket.Resilience
import PhpWebSocket.Timeouts
import PhpWebSocket.UpgradeMemory
import PhpWebSocket.Utf8
import PhpWebSocket.WellFormed
import PhpWebSocket.WriteQueue
import PhpWebSocket.Sessions
import PhpWebSocket.QueueMemory
