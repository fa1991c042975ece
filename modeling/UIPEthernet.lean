import UIPEthernet.Word
import UIPEthernet.Conf
import UIPEthernet.Mempool
import UIPEthernet.Lib.Linked
import UIPEthernet.Mempool.Invariant
import UIPEthernet.Mempool.Operations
import UIPEthernet.Mempool.Chain
import UIPEthernet.Enc28J60Network
import UIPEthernet.Enc28J60Network.Memory
import UIPEthernet.Enc28J60Network.Refinement
import UIPEthernet.Enc28J60Network.PoolInvariant
import UIPEthernet.Headers
import UIPEthernet.UIPClient
import UIPEthernet.Connections
import UIPEthernet.UIPUdp
import UIPEthernet.Uip
import UIPEthernet.Sketch
import UIPEthernet.UIPClient.Correspondence
import UIPEthernet.Enc28J60Network.Sharing
import UIPEthernet.UIPUdp.Mailbox
import UIPEthernet.Enc28J60Network.Sending
import UIPEthernet.Headers.Frame
import UIPEthernet.NetworkSend
import UIPEthernet.UIPUdp.Sender
import UIPEthernet.Uip.Turn
import UIPEthernet.UIPClient.Frame
import UIPEthernet.Enc28J60Network.Ring
import UIPEthernet.Enc28J60Network.BlockMove
import UIPEthernet.Enc28J60Network.Allocation
import UIPEthernet.UIPUdp.Listening
import UIPEthernet.UIPUdp.Remote
import UIPEthernet.Enc28J60Network.Sizes
import UIPEthernet.Headers.Fields
import UIPEthernet.UIPUdp.Destination
import UIPEthernet.UIPUdp.Lengths
import UIPEthernet.Lib.OnesComplement
import UIPEthernet.Headers.Checksum
import UIPEthernet.Lib.Ownership
import UIPEthernet.Lib.Chunks
import UIPEthernet.UIPEthernetClass.Slots
import UIPEthernet.UIPClient.Offer
import UIPEthernet.UIPClient.Outcome
import UIPEthernet.UIPClient.Queues
import UIPEthernet.Uip.Checks
import UIPEthernet.Uip.UpperLayer
import UIPEthernet.Uip.DataTurn
import UIPEthernet.Uip.RoundTrip
import UIPEthernet.Uip.Validation
import UIPEthernet.Uip.Echo
import UIPEthernet.UIPEthernetClass.Held
import UIPEthernet.UIPEthernetClass.Pieces
import UIPEthernet.UIPEthernetClass.Session
import UIPEthernet.UIPUdp.Calls
import UIPEthernet.UIPUdp.Ownership
import UIPEthernet.UIPClient.Calls
import UIPEthernet.UIPClient.Ownership
import UIPEthernet.UIPEthernetClass.FrameLength
import UIPEthernet.UIPUdp.Recovery
import UIPEthernet.UIPEthernetClass.KeptPacket
import UIPEthernet.UIPEthernetClass.Steps
import UIPEthernet.UIPEthernetClass.Frames
import UIPEthernet.UIPClient.Connected
import UIPEthernet.UIPClient.Write
import UIPEthernet.UIPClient.ByteQueue
import UIPEthernet.UIPClient.PacketQueue
import UIPEthernet.UIPClient.SendQueue
import UIPEthernet.UIPClient.AttachedQueues
import UIPEthernet.UIPClient.ReadByte
import UIPEthernet.UIPServer
import UIPEthernet.UIPServer.Write
import UIPEthernet.UIPClient.Connect
import UIPEthernet.UIPClient.Window
import UIPEthernet.UIPClient.Closing
import UIPEthernet.UIPClient.Retransmission
import UIPEthernet.UIPClient.SendStream
import UIPEthernet.Lib.Spans
import UIPEthernet.Uip.Protocol
import UIPEthernet.Uip.Conformance
import UIPEthernet.UIPEthernetClass.Conformance
import UIPEthernet.Lib.Countdown
import UIPEthernet.Uip.Timeout
import UIPEthernet.UIPEthernetClass.Timeout
import UIPEthernet.UIPEthernetClass.Settings
import UIPEthernet.UIPEthernetClass.LocalPort
import UIPEthernet.Lib.Cache
import UIPEthernet.UIPEthernetClass.Neighbours
import UIPEthernet.Uip.Resolution
import UIPEthernet.Dns
import UIPEthernet.UIPUdp.Reading
import UIPEthernet.Dns.Response
import UIPEthernet.Dns.Acceptance
import UIPEthernet.Dns.Lookup
import UIPEthernet.UIPUdp.Closed
import UIPEthernet.UIPUdp.Arrival
import UIPEthernet.Dns.Request
import UIPEthernet.Dns.Address
