import MrUDP.Lib.Wire
import MrUDP.Lib.Serial
import MrUDP.Lib.Run
import MrUDP.Types
import MrUDP.Packet
import MrUDP.Receiver.ReceiveQueue
import MrUDP.Sender.Retrier
import MrUDP.Sender.SendQueue
import MrUDP.Sender.Sender
import MrUDP.Sender.Calls
import MrUDP.Sender.Unreliable
import MrUDP.Link.Link
import MrUDP.Link.Delivery
import MrUDP.Link.FlowControl
import MrUDP.Receiver.Receiver
import MrUDP.Stream.Traffic
import MrUDP.Stream.RoundTrip
import MrUDP.Stream.Order
import MrUDP.Stream.Independence
import MrUDP.Connection.Probe
import MrUDP.Connection.Connection
import MrUDP.Connection.Invariants
import MrUDP.Connection.Outstanding
import MrUDP.Connection.Transmitted
import MrUDP.Connection.Acking
import MrUDP.Connection.Closing
import MrUDP.Socket.Socket
import MrUDP.Socket.Rejection
import MrUDP.Socket.Tables
import MrUDP.Connection.Unverified
import MrUDP.Sender.Tracking
import MrUDP.Sender.Interleaving
import MrUDP.Socket.Speech
import MrUDP.Socket.Agreement
import MrUDP.Crypto.Cipher
import MrUDP.Crypto.ConnectionCrypto
import MrUDP.Endpoint.Endpoint
import MrUDP.Endpoint.Plain
import MrUDP.Endpoint.Walk
import MrUDP.Endpoint.Sending
import MrUDP.Endpoint.Notices
import MrUDP.Endpoint.Migration
import MrUDP.Sender.Emission
import MrUDP.Endpoint.KeyExchange
import MrUDP.Endpoint.Injection
import MrUDP.Endpoint.Pipeline
import MrUDP.Base.CircularBuffer
import MrUDP.Receiver.Sequencing
import MrUDP.Proxy.Message
import MrUDP.Proxy.Wire
import MrUDP.Proxy.Forwarding
import MrUDP.Imp.Native
import MrUDP.Lib.Ordered
import MrUDP.Scheduler.Scheduler
import MrUDP.Scheduler.Pass
import MrUDP.Scheduler.Timer
import MrUDP.Proxy.Proxy
import MrUDP.Proxy.Handles
import MrUDP.Proxy.Identifiers
import MrUDP.PacketStack
import MrUDP.Sender.Packing
import MrUDP.Receiver.Parsing
import MrUDP.Stream.Blocks
import MrUDP.Proxy.Parsing
import MrUDP.Sender.RetryOrder
import MrUDP.Sender.RetryTimer
import MrUDP.Connection.ProbeInterval
import MrUDP.Connection.Retransmissions
import MrUDP.Endpoint.Oversized
import MrUDP.Base.Copy
import MrUDP.IDOrder
import MrUDP.Options
import MrUDP.Address
import MrUDP.Connection.ProbeTimer
import MrUDP.Proxy.AddressCodec
import MrUDP.Base.BufferCopies
import MrUDP.Connection.Moves
import MrUDP.Connection.Silence
import MrUDP.Peers.Conversation
import MrUDP.Imp.Listening
import MrUDP.Peers.Farewell
import MrUDP.Connection.Roaming
import MrUDP.Proxy.Accounts
import MrUDP.Proxy.Journal
import MrUDP.Proxy.Relay
import MrUDP.Proxy.Tunnel
