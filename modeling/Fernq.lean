import Fernq.Base.Outcome
import Fernq.Base.Bytes
import Fernq.Base.Crc
import Fernq.Base.CrcDistance
import Fernq.Base.Stream
import Fernq.Base.Pieces
import Fernq.Base.Text
import Fernq.Base.Utf8
import Fernq.Base.Transition
import Fernq.Base.Trace
import Fernq.Base.Progress
import Fernq.Base.Journal
import Fernq.Base.Lanes
import Fernq.Base.Probing
import Fernq.Protocol.Error
import Fernq.Protocol.Frame
import Fernq.Protocol.Encoder
import Fernq.Protocol.Decoder
import Fernq.Protocol.RoundTrip
import Fernq.Protocol.Bounds
import Fernq.Protocol.Framing
import Fernq.Protocol.Burst
import Fernq.Protocol.Corruption
import Fernq.Protocol.Canonical
import Fernq.Protocol.Limits
import Fernq.Protocol.Decoders
import Fernq.Protocol.Message
import Fernq.Protocol.MessageCodec
import Fernq.Protocol.MessageRoundTrip
import Fernq.Protocol.Reassembly
import Fernq.Protocol.Validate
import Fernq.Protocol.Url
import Fernq.Protocol.Replies
import Fernq.Protocol.Slices
import Fernq.Protocol.Grammar
import Fernq.Protocol.Address
import Fernq.Server.Conn
import Fernq.Server.Socket
import Fernq.Server.Reader
import Fernq.Server.Storage
import Fernq.Server.Rooms
import Fernq.Server.Handshake
import Fernq.Server.FirstFrame
import Fernq.Server.Admission
import Fernq.Server.Control
import Fernq.Server.ControlSocket
import Fernq.Server.ControlClient
import Fernq.Server.Requests
import Fernq.Server.Agreement
import Fernq.Server.Welcome
import Fernq.Server.Lifetime
import Fernq.Server.Directory
import Fernq.Server.Passwords
import Fernq.Server.Durability
import Fernq.Server.Leftover
import Fernq.Server.Dispatch
import Fernq.Server.Listen
import Fernq.Server.Receive
import Fernq.Server.Invitation
import Fernq.Server.Node
import Fernq.Server.NodeClosed
import Fernq.Server.Room
import Fernq.Server.Calls
import Fernq.Server.Closing
import Fernq.Server.Tasks
import Fernq.Server.Registry
import Fernq.Server.Assign
import Fernq.Server.FrameLimit
import Fernq.Server.Closed
import Fernq.Server.Delivery
import Fernq.Server.NotFound
import Fernq.Server.Memory
import Fernq.Server.Surviving
import Fernq.Server.Locks
import Fernq.Server.Sources
import Fernq.Server.Wire
import Fernq.Server.EndToEnd
import Fernq.Server.Answers
import Fernq.Server.Heartbeat
import Fernq.Server.Progress
import Fernq.Server.Drain
import Fernq.Server.Shutdown
