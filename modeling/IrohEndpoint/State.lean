import IrohEndpoint.Lib.Table
import IrohEndpoint.Noq

/-!
# The shared state

The state of a bound endpoint, shared between the exported resources and the
pump (`State` in `endpoint_impl.rs`), with its operations. Each is one
synchronous piece of the source: no other task runs during it.

* the standins: `addrForPeer` gives every peer one synthetic address, and
  `routes` the wire behind it;
* the relay pool: `registerRelay`, `retireRelay`;
* the channels: `registerChannel`, `retireChannel`;
* the signaling slots: `beginSignaling`, `endSignaling`;
* incoming datagrams: `handleDatagram` and its three callers;
* `drain`, which polls every connection until it is quiescent: each event goes
  through `onEvent`, each transmit to the wire of its destination.

The maps are tables and the queues are lists, popped at the head. What noq
decides is an argument. Three fields only record history: the relay
connections and the channel wires that were closed, and the connections that
were inserted.
-/

namespace IrohEndpoint

/-- An open channel. -/
structure ChannelEntry where
  wire : ChannelWire
  /-- The relay-authenticated peer the channel was signaled with. -/
  peer : EndpointId
  /-- The relay the channel was signaled through, where its peer's route
      returns if the channel dies. -/
  fallbackRelay : RelayKey
  deriving DecidableEq

/-- A connection of the endpoint. -/
structure ConnEntry where
  conn : NoqConnection
  /-- Which occupancy of the handle's slot this entry is. -/
  epoch : ℕ
  /-- The identity this connection must authenticate as, when one is known up
      front. -/
  expectedPeer : Option EndpointId
  /-- The authenticated peer identity, set at `Connected`. -/
  peer : Option EndpointId
  acceptedSide : Bool
  connected : Bool
  alpn : Bytes
  error : Option Error
  /-- The peer's application close, captured at `ConnectionLost`. -/
  peerClose : Option CloseInfo
  drained : Bool
  biQueue : List StreamId
  uniQueue : List StreamId
  deriving DecidableEq

/-- The entry of a connection that noq just made. -/
def ConnEntry.new (conn : NoqConnection) (expectedPeer : Option EndpointId) (acceptedSide : Bool)
    (epoch : ℕ) : ConnEntry where
  conn := conn
  epoch := epoch
  expectedPeer := expectedPeer
  peer := none
  acceptedSide := acceptedSide
  connected := false
  alpn := []
  error := none
  peerClose := none
  drained := false
  biQueue := []
  uniQueue := []

/-- One insertion in the table of connections: the slot, the stamp, and which
    connection was inserted. -/
structure Insertion where
  handle : ConnectionHandle
  epoch : ℕ
  id : ℕ
  deriving DecidableEq

/-- The state that the resources of an endpoint and its pump share. -/
structure State where
  conns : Table ConnectionHandle ConnEntry
  nextConnEpoch : ℕ
  peerToAddr : Table EndpointId SocketAddr
  addrToPeer : Table SocketAddr EndpointId
  nextHost : ℕ
  acceptQueue : List (ConnectionHandle × ℕ)
  relayOutbound : List (RelayKey × EndpointId × Bytes)
  udpOutbound : List (SocketAddr × Bytes)
  channelOutbound : List (ChannelId × Bytes)
  routes : Table SocketAddr RouteWire
  relayPool : Table RelayKey RelayConn
  relayKeys : Table String RelayKey
  relayOpening : List String
  newRelays : List (RelayKey × RelayConn)
  nextRelayKey : ℕ
  pendingUpgrades : List (EndpointId × RelayKey)
  webrtcEnabled : Bool
  signaling : Table EndpointId RelayKey
  signalInboxes : Table EndpointId (List Bytes)
  channels : Table ChannelId ChannelEntry
  newChannels : List (ChannelId × ChannelWire)
  nextChannelId : ℕ
  closed : Bool
  closedAt : Option Instant
  /-- The tasks parked in `wait_until`, by their ids. -/
  waiters : List ℕ
  /-- Whether the pump's waker is parked. -/
  pumpWaker : Bool
  pumpKicked : Bool
  /-- The relay connections that were closed. -/
  closedRelays : List RelayConn
  /-- The channel wires that were closed. -/
  closedWires : List ChannelWire
  /-- The connections that were ever inserted in `conns`, in order. -/
  insertions : List Insertion

namespace State

/-- The state of an endpoint that was not used yet. -/
def new (webrtcEnabled : Bool) : State where
  conns := ∅
  nextConnEpoch := 0
  peerToAddr := ∅
  addrToPeer := ∅
  nextHost := 0
  acceptQueue := []
  relayOutbound := []
  udpOutbound := []
  channelOutbound := []
  routes := ∅
  relayPool := ∅
  relayKeys := ∅
  relayOpening := []
  newRelays := []
  nextRelayKey := 0
  pendingUpgrades := []
  webrtcEnabled := webrtcEnabled
  signaling := ∅
  signalInboxes := ∅
  channels := ∅
  newChannels := []
  nextChannelId := 0
  closed := false
  closedAt := none
  waiters := []
  pumpWaker := false
  pumpKicked := false
  closedRelays := []
  closedWires := []
  insertions := []

/-! ## Wake-ups -/

/-- Wake every parked `wait_until` future to re-check its condition. -/
def wakeWaiters (s : State) : State := { s with waiters := [] }

/-- Wake the pump to flush the consequences of a mutation. -/
def kickPump (s : State) : State := { s with pumpKicked := true, pumpWaker := false }

/-! ## Standins and relays -/

/-- The stable synthetic address standing in for `peer`. A fresh standin
    routes to the relay it was first seen through. -/
def addrForPeer (s : State) (peer : EndpointId) (via : RelayKey) :
    Except Fault (State × SocketAddr) :=
  match s.peerToAddr.lookup peer with
  | some addr => .ok (s, addr)
  | none => do
    let nextHost ← bump 32 s.nextHost
    let addr := docPrefixAddr 0x77 nextHost
    return ({ s with
      nextHost := nextHost
      peerToAddr := s.peerToAddr.insert peer addr
      addrToPeer := s.addrToPeer.insert addr peer
      routes := s.routes.insert addr (.relay via) }, addr)

/-- Add a relay connection to the pool under its normalized URL. The first
    registration is the home relay. -/
def registerRelay (s : State) (url : String) (conn : RelayConn) :
    Except Fault (State × RelayKey) := do
  let key := s.nextRelayKey
  let nextRelayKey ← bump 32 s.nextRelayKey
  return (kickPump { s with
    nextRelayKey := nextRelayKey
    relayPool := s.relayPool.insert key conn
    relayKeys := s.relayKeys.insert (normalizeRelayUrl url) key
    newRelays := s.newRelays ++ [(key, conn)] }, key)

/-- Retire a relay: it leaves the pool and its URL mapping. Returns the retired
    connection, for the caller to close. -/
def retireRelay (s : State) (key : RelayKey) : State × Option RelayConn :=
  ({ s with
    relayPool := s.relayPool.erase key
    relayKeys := Table.retain (fun _ mapped => mapped != key) s.relayKeys },
    s.relayPool.lookup key)

/-- Initiate the close of a relay connection. -/
def closeRelay (s : State) (conn : RelayConn) : State :=
  { s with closedRelays := conn :: s.closedRelays }

/-- Initiate the close of a channel wire. -/
def closeWire (s : State) (wire : ChannelWire) : State :=
  { s with closedWires := wire :: s.closedWires }

/-! ## Signaling and channels -/

/-- Claim the signaling slot for `peer`, recording the relay the session
    signals through; one session at a time. -/
def beginSignaling (s : State) (peer : EndpointId) (relay : RelayKey) : Except Error State :=
  match s.signaling.lookup peer with
  | some _ =>
    .error (.connectFailed "a webrtc signaling session with this peer is already active")
  | none => .ok { s with signaling := s.signaling.insert peer relay }

/-- Release `peer`'s signaling slot and drop its unread signals. -/
def endSignaling (s : State) (peer : EndpointId) : State :=
  { s with signaling := s.signaling.erase peer, signalInboxes := s.signalInboxes.erase peer }

/-- The relay `peer`'s active signaling session speaks through. -/
def signalingRelay (s : State) (peer : EndpointId) : Option RelayKey := s.signaling.lookup peer

/-- Queue one signaling payload for the pump to relay to `peer`. -/
def pushSignalOutbound (s : State) (relay : RelayKey) (peer : EndpointId) (payload : Bytes) :
    State :=
  kickPump { s with relayOutbound := s.relayOutbound ++ [(relay, peer, payload)] }

/-- The next signaling payload from `peer`, if any. -/
def popSignalInbox (s : State) (peer : EndpointId) : State × Option Bytes :=
  match s.signalInboxes.lookup peer with
  | some (payload :: rest) =>
    ({ s with signalInboxes := s.signalInboxes.insert peer rest }, some payload)
  | _ => (s, none)

/-- Register an open channel to `peer` and move the peer's route onto it. A
    closing endpoint refuses and closes the wire. -/
def registerChannel (s : State) (peer : EndpointId) (wire : ChannelWire) :
    Except Fault (State × Except Error Unit) :=
  if s.closed then
    .ok (s.closeWire wire, .error .closed)
  else do
    let fallbackRelay := (s.signalingRelay peer).getD homeRelay
    let id ← bump 32 s.nextChannelId
    let s := { s with
      nextChannelId := id
      channels := s.channels.insert id ⟨wire, peer, fallbackRelay⟩
      newChannels := s.newChannels ++ [(id, wire)] }
    let (s, synthetic) ← s.addrForPeer peer fallbackRelay
    return (kickPump { s with routes := s.routes.insert synthetic (.channel id) }, .ok ())

/-- Retire a dead channel; a peer routed over it moves back to the relay the
    channel was signaled through. -/
def retireChannel (s : State) (id : ChannelId) : State :=
  match s.channels.lookup id with
  | none => s
  | some entry =>
    let s := { s with channels := s.channels.erase id }
    match s.peerToAddr.lookup entry.peer with
    | none => s
    | some synthetic =>
      if s.routes.lookup synthetic = some (.channel id) then
        { s with routes := s.routes.insert synthetic (.relay entry.fallbackRelay) }
      else s

/-! ## Connections -/

/-- The entry for `handle`, but only while it is still the same connection the
    caller was minted for. -/
def entryFor (s : State) (handle : ConnectionHandle) (epoch : ℕ) : Option ConnEntry :=
  (s.conns.lookup handle).filter fun e => e.epoch == epoch

/-- Connections handshaking or handshaken toward `accept` that no acceptor has
    claimed. -/
def acceptBacklog (s : State) : ℕ :=
  s.acceptQueue.length +
    (s.conns.values.filter fun e =>
      e.acceptedSide && !e.connected && e.error.isNone && !e.drained).length

/-- noq hands out a handle only once its last occupant has drained. -/
def claimHandle (s : State) (handle : ConnectionHandle) : Except Fault Unit :=
  match s.conns.lookup handle with
  | some entry => if entry.drained then .ok () else .error .stuck
  | none => .ok ()

/-- Insert the entry of a connection that noq just made under `handle`, stamped
    with the next epoch. -/
def insertConn (s : State) (handle : ConnectionHandle) (origin : Origin) (remote : SocketAddr)
    (expectedPeer : Option EndpointId) (acceptedSide : Bool) : Except Fault (State × ℕ) := do
  s.claimHandle handle
  let epoch := s.nextConnEpoch
  let nextConnEpoch ← bump 64 s.nextConnEpoch
  let conn := NoqConnection.new s.insertions.length origin remote
  return ({ s with
    nextConnEpoch := nextConnEpoch
    insertions := s.insertions ++ [⟨handle, epoch, conn.id⟩]
    conns := s.conns.insert handle (.new conn expectedPeer acceptedSide epoch) }, epoch)

/-- Close a connection that has neither failed nor drained. -/
def closeConn (e : ConnEntry) (code : ℕ) (reason : Bytes) : ConnEntry :=
  if e.error.isNone && !e.drained then { e with conn := e.conn.close code reason } else e

/-- Close every connection that has neither failed nor drained. -/
def closeAll (s : State) (reason : Bytes) : State :=
  { s with conns := Table.mapValues (fun _ e => closeConn e 0 reason) s.conns }

/-! ## Incoming datagrams -/

/-- Send an endpoint-level response back where the datagram came from, by the
    standin's current route; real addresses go to the UDP socket. -/
def pushResponse (s : State) (addr : SocketAddr) (source : Option EndpointId) (payload : Bytes) :
    State :=
  match s.routes.lookup addr, source with
  | some (.relay key), some peer =>
    { s with relayOutbound := s.relayOutbound ++ [(key, peer, payload)] }
  | some (.channel id), _ => { s with channelOutbound := s.channelOutbound ++ [(id, payload)] }
  | _, _ => { s with udpOutbound := s.udpOutbound ++ [(addr, payload)] }

/-- Feed a datagram to noq, which answers with `event`. -/
def handleDatagram (s : State) (addr : SocketAddr) (source : Option EndpointId) (origin : Origin)
    (event : DatagramEvent) : Except Fault State :=
  match event with
  -- The event goes to the connection, inside noq.
  | .connectionEvent _ => .ok s
  | .newConnection refusal accepted =>
    if s.closed then .ok s
    -- Backpressure: past the backlog, new attempts are refused.
    else if s.acceptBacklog ≥ acceptBacklogBound then .ok (s.pushResponse addr source refusal)
    else match accepted with
      | .ok handle => do
        let (s, _) ← s.insertConn handle origin addr source true
        return s
      | .error (some packet) => .ok (s.pushResponse addr source packet)
      | .error none => .ok s
  | .response packet => .ok (s.pushResponse addr source packet)
  | .ignored => .ok s

/-- A datagram from the relay `via`, whose source the relay authenticated. -/
def handleRelayDatagram (s : State) (via : RelayKey) (source : EndpointId)
    (event : DatagramEvent) : Except Fault State := do
  let (s, addr) ← s.addrForPeer source via
  s.handleDatagram addr (some source) (.relay source) event

/-- A datagram from the UDP socket. -/
def handleUdpDatagram (s : State) (remote : SocketAddr) (event : DatagramEvent) :
    Except Fault State :=
  s.handleDatagram remote none .udp event

/-- A datagram from a channel enters noq under the peer's standin, attributed
    to the peer the channel was signaled with. -/
def handleChannelDatagram (s : State) (id : ChannelId) (event : DatagramEvent) :
    Except Fault State :=
  match s.channels.lookup id with
  | none => .ok s
  | some entry => do
    let (s, synthetic) ← s.addrForPeer entry.peer entry.fallbackRelay
    s.handleDatagram synthetic (some entry.peer) (.channel id entry.peer) event

end State

/-! ## Events -/

/-- What the loss of a connection is recorded as: the error, and the peer's
    application close. -/
def ConnectionError.recorded : ConnectionError → Error × Option CloseInfo
  | applicationClosed errorCode reason => (.closed, some ⟨errorCode, fromUtf8Lossy reason⟩)
  | locallyClosed => (.closed, none)
  | timedOut => (.timedOut "the connection timed out", none)
  | other display => (.other ("connection lost: " ++ display), none)

/-- The `Connected` event: the connection is surfaced only if the handshake
    authenticated the expected key. -/
def onConnected (entry : ConnEntry) (handle : ConnectionHandle) (session : CryptoSession)
    (acceptQueue : List (ConnectionHandle × ℕ)) : ConnEntry × List (ConnectionHandle × ℕ) :=
  let entry := match session.handshakeData with
    | some protocol => { entry with alpn := protocol.getD [] }
    | none => entry
  match session.peerIdentity with
  | some id =>
    if entry.expectedPeer = none ∨ entry.expectedPeer = some id then
      ({ entry with peer := some id, connected := true },
        if entry.acceptedSide then acceptQueue ++ [(handle, entry.epoch)] else acceptQueue)
    else (mismatch entry, acceptQueue)
  | none => (mismatch entry, acceptQueue)
where
  /-- The handshake authenticated another key, or none. -/
  mismatch (entry : ConnEntry) : ConnEntry :=
    { entry with
      error := some (.connectFailed "authenticated key differs from the addressed peer")
      conn := entry.conn.close 1 "identity mismatch".toUTF8.toList }

/-- The effect of an event of a connection on its entry and on the queue of
    connections to accept. -/
def onEvent (entry : ConnEntry) (handle : ConnectionHandle) (event : Event)
    (acceptQueue : List (ConnectionHandle × ℕ)) : ConnEntry × List (ConnectionHandle × ℕ) :=
  match event with
  | .handshakeDataReady | .handshakeConfirmed | .path | .natTraversal => (entry, acceptQueue)
  | .connected session => onConnected entry handle session acceptQueue
  | .streamOpened bi uni =>
    ({ entry with biQueue := entry.biQueue ++ bi, uniQueue := entry.uniQueue ++ uni }, acceptQueue)
  | .stream | .datagramReceived | .datagramsUnblocked => (entry, acceptQueue)
  | .connectionLost reason =>
    ({ entry with
      error := some reason.recorded.1
      peerClose := reason.recorded.2.or entry.peerClose }, acceptQueue)

namespace State

/-! ## Draining -/

/-- Poll one event of the connection under `handle`. -/
def pollEvent (handle : ConnectionHandle) (s : State) (event : Event) : Except Fault State :=
  match s.conns.lookup handle with
  | none => .ok s
  | some entry =>
    match entry.conn.emit event with
    | none => .error .stuck
    | some conn =>
      let (entry, acceptQueue) := onEvent { entry with conn := conn } handle event s.acceptQueue
      .ok { s with conns := s.conns.insert handle entry, acceptQueue := acceptQueue }

/-- Queue one transmit by the standin's current wire; real addresses have no
    route entry and go to the UDP socket. -/
def routeTransmit (s : State) (transmit : SocketAddr × Bytes) : Except Fault State :=
  match s.routes.lookup transmit.1 with
  | some (.relay key) =>
    match s.addrToPeer.lookup transmit.1 with
    | some peer =>
      .ok { s with relayOutbound := s.relayOutbound ++ [(key, peer, transmit.2)] }
    | none => .error .missingKey
  | some (.channel id) =>
    .ok { s with channelOutbound := s.channelOutbound ++ [(id, transmit.2)] }
  | none => .ok { s with udpOutbound := s.udpOutbound ++ [transmit] }

/-- One turn of polling the connection under `handle`. -/
def drainRound (handle : ConnectionHandle) (s : State) (r : Round) : Except Fault State := do
  let s ← r.events.foldlM (pollEvent handle) s
  r.transmits.foldlM routeTransmit s

/-- The turns of polling the connection under `handle`, up to the first without
    progress. -/
def drainRounds (handle : ConnectionHandle) : List Round → State → Except Fault (State × Bool)
  | [], s => .ok (s, false)
  | r :: rs, s =>
    if r.progressed then do
      let s ← drainRound handle s r
      let (s, _) ← drainRounds handle rs s
      return (s, true)
    else .ok (s, false)

/-- Record that the connection under `handle` is drained. -/
def markDrained (s : State) (handle : ConnectionHandle) (isDrained : Bool) : State × Bool :=
  match s.conns.lookup handle with
  | none => (s, false)
  | some entry =>
    if !entry.drained && isDrained then
      ({ s with conns := s.conns.insert handle { entry with drained := true } }, true)
    else (s, false)

/-- Drain one connection. -/
def drainConn (polling : ConnectionHandle → Polling) (acc : State × Bool)
    (handle : ConnectionHandle) : Except Fault (State × Bool) := do
  let (s, progressed) ← drainRounds handle (polling handle).rounds acc.1
  let (s, drained) := s.markDrained handle (polling handle).isDrained
  return (s, acc.2 || progressed || drained)

/-- Drain the events and the transmits of every connection until quiescent;
    returns whether anything progressed. -/
def drain (s : State) (polling : ConnectionHandle → Polling) : Except Fault (State × Bool) :=
  s.conns.keys.foldlM (drainConn polling) (s, false)

end State

end IrohEndpoint
