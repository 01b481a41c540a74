import IrohEndpoint.Acceptors
import IrohEndpoint.Backlog
import IrohEndpoint.Bind
import IrohEndpoint.Borrows
import IrohEndpoint.Deadlines
import IrohEndpoint.Demux
import IrohEndpoint.Dial
import IrohEndpoint.Escalation
import IrohEndpoint.Framing
import IrohEndpoint.Kicks
import IrohEndpoint.Negotiation.Disturbed
import IrohEndpoint.Parked
import IrohEndpoint.PathChanges
import IrohEndpoint.Pipe
import IrohEndpoint.RecvStream.CleanEnd
import IrohEndpoint.RecvStream.Consumers
import IrohEndpoint.RelayClient.Handshake
import IrohEndpoint.RelayClient.Liveness
import IrohEndpoint.RelayClient.Receive
import IrohEndpoint.RelayClient.Silence
import IrohEndpoint.RelayClient.Wire
import IrohEndpoint.RelayUrl
import IrohEndpoint.RouteKeys
import IrohEndpoint.Routing
import IrohEndpoint.SendStream.Drop
import IrohEndpoint.Sessions
import IrohEndpoint.Shutdown
import IrohEndpoint.Signaling
import IrohEndpoint.Standins
import IrohEndpoint.Teardown
import IrohEndpoint.Traffic
import IrohEndpoint.Wakeups
import IrohEndpoint.Wires
