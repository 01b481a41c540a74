import IrohEndpoint.Types

/-!
# noq

What the endpoint relies on of noq, the QUIC state machine it drives. noq is
outside this development: what it decides (which events a connection emits,
which packets it sends, how it answers a call) is chosen freely at each step,
and a `NoqConnection` only keeps what the endpoint's own contract speaks of.

The one promise the endpoint needs is in `NoqConnection.emit`: a connection
emits `Connected` at most once.
-/

namespace IrohEndpoint

/-- A slot of noq's connection slab. It is used again once the connection in
    it has drained. -/
abbrev ConnectionHandle := ℕ

/-- A stream of a connection. -/
abbrev StreamId := ℕ

/-- The direction of a stream. -/
inductive Dir
  | bi
  | uni
  deriving DecidableEq

/-- What the crypto session of a connection holds when it is connected. -/
structure CryptoSession where
  /-- The handshake data, if it has the type of the QUIC profile: the
      negotiated protocol. -/
  handshakeData : Option (Option Bytes)
  /-- The key in the peer's raw-public-key certificate, if it has a first one
      that is a well-formed Ed25519 key: the key that the handshake verified. -/
  peerIdentity : Option EndpointId
  deriving DecidableEq

/-- Why a connection was lost. -/
inductive ConnectionError
  | applicationClosed (errorCode : ℕ) (reason : Bytes)
  | locallyClosed
  | timedOut
  /-- Any other reason, by the text noq displays for it. -/
  | other (display : String)
  deriving DecidableEq

/-- The application events of a connection. -/
inductive Event
  | handshakeDataReady
  | handshakeConfirmed
  | path
  | natTraversal
  /-- The handshake is complete, with the crypto session at that point. -/
  | connected (session : CryptoSession)
  /-- The peer opened streams, with the ids that `streams().accept` yields for
      the two directions until it is exhausted. -/
  | streamOpened (bi uni : List StreamId)
  | stream
  | datagramReceived
  | datagramsUnblocked
  | connectionLost (reason : ConnectionError)
  deriving DecidableEq

/-- Where a connection comes from. -/
inductive Origin
  /-- Dialed by `connect` to a peer. -/
  | dialed (peer : EndpointId)
  /-- Accepted from a datagram that a relay authenticated the source of. -/
  | relay (source : EndpointId)
  /-- Accepted from a datagram of a channel, signaled with a peer. -/
  | channel (id : ChannelId) (peer : EndpointId)
  /-- Accepted from a datagram of the UDP socket. -/
  | udp
  deriving DecidableEq

/-- The identity that a connection's origin claims. -/
def Origin.claim : Origin → Option EndpointId
  | dialed peer => some peer
  | relay source => some source
  | channel _ peer => some peer
  | udp => none

/-- A noq connection: its identity, its origin, the address of its one network
    path, and what was observed of it. -/
structure NoqConnection where
  /-- The identity of the connection. No two connections share it. -/
  id : ℕ
  origin : Origin
  remote : SocketAddr
  /-- The crypto session of its `Connected` event, once emitted. -/
  session : Option CryptoSession
  /-- The code and the reason of the first local close. -/
  closeCall : Option (ℕ × Bytes)
  deriving DecidableEq

namespace NoqConnection

/-- A connection that noq just made. -/
def new (id : ℕ) (origin : Origin) (remote : SocketAddr) : NoqConnection where
  id := id
  origin := origin
  remote := remote
  session := none
  closeCall := none

/-- Close the connection. Only the first close counts. -/
def close (conn : NoqConnection) (code : ℕ) (reason : Bytes) : NoqConnection :=
  { conn with closeCall := conn.closeCall.or (some (code, reason)) }

/-- The connection after it emitted an event, if it may emit it: `Connected`
    is emitted at most once. -/
def emit (conn : NoqConnection) : Event → Option NoqConnection
  | .connected session =>
    match conn.session with
    | none => some { conn with session := some session }
    | some _ => none
  | _ => some conn

end NoqConnection

/-- One turn of polling a connection: the endpoint events it exchanged with
    noq's endpoint, its application events and its transmits. -/
structure Round where
  endpointEvents : ℕ
  events : List Event
  transmits : List (SocketAddr × Bytes)

/-- Whether a turn made progress. -/
def Round.progressed (r : Round) : Bool :=
  r.endpointEvents != 0 || !r.events.isEmpty || !r.transmits.isEmpty

/-- How noq answers the polling of one connection until it is quiescent, and
    whether the connection is drained then. -/
structure Polling where
  rounds : List Round
  isDrained : Bool

/-- How noq answers to an incoming datagram. -/
inductive DatagramEvent
  /-- The datagram belongs to a connection. -/
  | connectionEvent (handle : ConnectionHandle)
  /-- The datagram starts a connection: the packet that `refuse` would answer
      with, and what `accept` would give, the handle of the new connection or
      the packet to answer with. -/
  | newConnection (refusal : Bytes) (accepted : Except (Option Bytes) ConnectionHandle)
  /-- The endpoint answers by itself. -/
  | response (packet : Bytes)
  /-- The datagram is ignored. -/
  | ignored

end IrohEndpoint
