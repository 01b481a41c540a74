import IrohEndpoint.Wait
import IrohEndpoint.Redial

/-!
# A bound endpoint

The shared state of a bound endpoint with everything that is in flight (`Sys`):
the pump with its local variables (`Pump`), the `connect` and `accept` calls,
the connections and streams handed to the application, and the signaling
sessions. The steps these tasks take are in `IrohEndpoint.System.Pump` and
`IrohEndpoint.System.Step`; the pieces of code they run are here.

`Sys` also records history that the code has no variable for: which relay
connections were opened for the home relay, through which relays a session
published, and which channels the sessions registered.
-/

namespace IrohEndpoint

/-- The id of a task. -/
abbrev TaskId := ℕ

/-- The id of a resource. -/
abbrev ResId := ℕ

/-! ## Calls and sessions in flight -/

/-- What an endpoint is bound with. -/
structure Config where
  /-- The URL of the home relay. -/
  homeUrl : String
  /-- Whether a UDP socket is bound. -/
  udp : Bool
  /-- `str::parse` for socket addresses. -/
  parseSocketAddr : String → Option SocketAddr

/-- The dial path `connect` selects from an address. -/
structure DialPlan where
  direct : Option SocketAddr
  dialRelay : Option String
  webrtcHint : Option String

/-- Take one more address entry into account. -/
def DialPlan.add (config : Config) (webrtcEnabled : Bool) (plan : DialPlan) :
    TransportAddr → DialPlan
  | .relay url => if plan.dialRelay.isNone then { plan with dialRelay := some url } else plan
  | .ip text =>
    if plan.direct.isNone && config.udp then
      { plan with direct := config.parseSocketAddr text } else plan
  | .webrtc url =>
    if webrtcEnabled && plan.webrtcHint.isNone then { plan with webrtcHint := some url } else plan
  | .custom _ _ => plan

/-- The dial path of an address. -/
def DialPlan.select (config : Config) (webrtcEnabled : Bool) (addrs : List TransportAddr) :
    DialPlan :=
  addrs.foldl (DialPlan.add config webrtcEnabled) ⟨none, none, none⟩

/-- Which pool key a `connect` resolves: that of the relay to dial through, or,
    given it, that of the relay to signal an upgrade through. -/
inductive Target
  | dial
  | upgrade (dialKey : RelayKey)

/-- How far a `connect` call has come. -/
inductive ConnectPhase
  /-- About to resolve a pool key. -/
  | resolve (target : Target)
  /-- Dialing a relay, under an armed `RelayClaim`. -/
  | opening (target : Target)
  /-- Waiting for another call's dial of the relay. -/
  | waiting (target : Target) (started : Instant)
  /-- The pool keys are resolved. -/
  | dialing (dialKey : RelayKey) (upgradeKey : Option RelayKey)
  /-- Waiting for the handshake, under an armed `DialGuard`. -/
  | parked (handle : ConnectionHandle) (epoch : ℕ)
  | done (result : Except Error ResId)

/-- The identity of an `endpoint-id` argument. -/
def EndpointId.ofBytes (bytes : Bytes) : Except Error EndpointId :=
  if h : bytes.length = 32 then .ok ⟨bytes.toArray, h⟩
  else .error (.invalidArgument "endpoint id is not 32 bytes")

/-- A `connect` call. -/
structure ConnectTask where
  /-- The argument of the call, and its identity as 32 bytes. -/
  addr : EndpointAddr
  peer : EndpointId
  plan : DialPlan
  phase : ConnectPhase
  valid : EndpointId.ofBytes addr.endpointId = .ok peer

namespace Target

/-- The URL whose pool key is to be resolved: none without a hint, or if the
    connection is dialed directly. -/
def url (plan : DialPlan) : Target → Option String
  | dial => if plan.direct.isSome then none else plan.dialRelay
  | upgrade _ => if plan.direct.isSome then none else plan.webrtcHint

/-- The phase after the pool key was resolved. -/
def next : Target → RelayKey → ConnectPhase
  | dial, key => .resolve (.upgrade key)
  | upgrade dialKey, key => .dialing dialKey (some key)

/-- The phase if there is no pool key to resolve. -/
def skip : Target → ConnectPhase
  | dial => .resolve (.upgrade homeRelay)
  | upgrade dialKey => .dialing dialKey none

end Target

/-- A connection handed to the application. -/
structure ConnectionRes where
  handle : ConnectionHandle
  epoch : ℕ

/-- A send or receive stream handed to the application. -/
structure StreamRes where
  handle : ConnectionHandle
  epoch : ℕ
  id : StreamId

/-- The side of a signaling session. -/
inductive Role
  | offerer
  | answerer
  deriving DecidableEq

/-- A signaling session with a peer. -/
structure SignalingSession where
  peer : EndpointId
  role : Role
  /-- The relay the session was started with: the argument of `upgrade`, or the
      relay its first signal arrived through. -/
  via : RelayKey
  /-- Whether the session holds the peer's slot. -/
  live : Bool
  /-- The relays the session's signals were published through. -/
  published : List RelayKey

/-- A channel that a session registered. -/
structure Registration where
  id : ChannelId
  session : SignalingSession
  /-- The entry the channel was registered with. -/
  entry : ChannelEntry

/-! ## The pump -/

/-- The point the pump has reached. -/
inductive PumpPc
  /-- At the top of its loop. -/
  | top
  /-- Flushing the relay queue, or awaiting a relay send. -/
  | flushRelay
  | sendRelay (key : RelayKey) (conn : RelayConn)
  /-- Flushing the UDP queue, or awaiting a UDP send. -/
  | flushUdp
  | sendUdp
  /-- Flushing the channel queue, or awaiting a channel send. -/
  | flushChannel
  | sendChannel
  /-- Arming the receives and spawning the upgrades. -/
  | arm
  /-- Checking whether to end. -/
  | check
  /-- Polling the arms of the select, and suspended in it. -/
  | polling
  | suspended
  /-- A redial has resolved. -/
  | redialed (conn : RelayConn)
  /-- Out of the loop, awaiting the UDP self-wake, awaiting the pending
      receives, and done. -/
  | leaving
  | selfWake
  | settling
  | done
  deriving DecidableEq

namespace PumpPc

/-- The pump is at an `await`, or has ended. -/
def awaits : PumpPc → Bool
  | sendRelay _ _ | sendUdp | sendChannel | suspended | selfWake | settling | done => true
  | _ => false

/-- The pump is in its select. -/
def inSelect : PumpPc → Bool
  | polling | suspended => true
  | _ => false

/-- The pump has left its loop. -/
def left : PumpPc → Bool
  | leaving | selfWake | settling | done => true
  | _ => false

end PumpPc

/-- A redial in flight: the delay it waits before it dials. -/
structure Redial where
  delay : Duration

/-- The pump and its local variables. -/
structure Pump where
  pc : PumpPc
  relayRecvs : List (RelayKey × RelayConn)
  channelRecvs : List (ChannelId × ChannelWire)
  /-- Whether a UDP receive is armed. -/
  udpRecv : Bool
  redial : Option Redial
  backoff : Backoff
  forceWake : Bool

/-- The verdict of one liveness probe. -/
inductive ProbeStep
  | healthy
  | ping
  | dead
  deriving DecidableEq

/-- Whether `conn` is still the connection the pool holds under `key`. -/
def State.isPoolCurrent (s : State) (key : RelayKey) (conn : RelayConn) : Bool :=
  s.relayPool.lookup key == some conn

/-- Take the failed home relay out of the pool and close it. Its URL mapping
    stays. Returns whether this call is the one that retired it. -/
def State.retireHome (s : State) (conn : RelayConn) : State × Bool :=
  if s.isPoolCurrent homeRelay conn then
    (closeRelay { s with relayPool := s.relayPool.erase homeRelay } conn, true)
  else (s, false)

/-- Retire a foreign relay and close its connection. -/
def State.failRelay (s : State) (key : RelayKey) : State :=
  match s.retireRelay key with
  | (s, some conn) => s.closeRelay conn
  | (s, none) => s

/-- Inbound signaling: file the payload in the peer's inbox, claiming the slot
    of a peer without a session. Returns whether to spawn an answerer. -/
def State.handleSignal (s : State) (via : RelayKey) (source : EndpointId) (payload : Bytes) :
    State × Bool :=
  if !s.webrtcEnabled || s.closed then (s, false)
  else
    let spawnAnswerer := (s.signaling.lookup source).isNone
    let s := if spawnAnswerer then { s with signaling := s.signaling.insert source via } else s
    let inbox := (s.signalInboxes.lookup source).getD []
    let inbox := if inbox.length < inboxCap then inbox ++ [payload] else inbox
    (wakeWaiters { s with signalInboxes := s.signalInboxes.insert source inbox }, spawnAnswerer)

/-- The closing of the endpoint. -/
def State.closeEndpoint (s : State) (now : Instant) (reason : Bytes) : State :=
  if s.closed then s
  else wakeWaiters (kickPump (closeAll { s with closed := true, closedAt := some now } reason))

/-- Whether the pump may end: the endpoint is closed, and every connection is
    drained or has failed, or the linger is over. -/
def State.mayEnd (s : State) (now : Instant) : Bool :=
  s.closed && (s.conns.values.all (fun e => e.drained || e.error.isSome) ||
    (s.closedAt.map fun at_ => decide (now - at_ ≥ linger)).getD true)

/-- How `ensure_relay` begins. -/
inductive Opening
  | found (key : RelayKey)
  | closed
  /-- This call claimed the open. -/
  | claimed
  /-- Another call is opening the relay. -/
  | shared

/-- The pool key for `url`, or who opens it. -/
def State.ensureRelay (s : State) (url : String) : State × Opening :=
  let normalized := normalizeRelayUrl url
  match s.relayKeys.lookup normalized with
  | some key => (s, .found key)
  | none =>
    if s.closed then (s, .closed)
    else if normalized ∈ s.relayOpening then (s, .shared)
    else ({ s with relayOpening := normalized :: s.relayOpening }, .claimed)

/-- The claim on opening `url` is released, and its waiters re-check. -/
def State.releaseClaim (s : State) (url : String) : State :=
  wakeWaiters { s with relayOpening := s.relayOpening.erase (normalizeRelayUrl url) }

/-- A failed relay dial. -/
inductive DialError
  | timedOut
  | failed (detail : String)

/-- How `ensure_relay` reports a failed dial. -/
def DialError.report (url : String) : DialError → Error
  | timedOut => .timedOut ("relay " ++ url ++ ": dial timed out")
  | failed detail => .connectFailed ("relay " ++ url ++ ": " ++ detail)

/-- The address to dial: the direct one, or the peer's standin, whose route
    follows the dial unless it is a channel. -/
def State.dialAddr (s : State) (peer : EndpointId) (direct : Option SocketAddr)
    (dialKey : RelayKey) : Except Fault (State × SocketAddr) :=
  match direct with
  | some real => .ok (s, real)
  | none => do
    let (s, standin) ← s.addrForPeer peer dialKey
    match s.routes.lookup standin with
    | some (.relay _) =>
      return ({ s with routes := s.routes.insert standin (.relay dialKey) }, standin)
    | _ => return (s, standin)

/-- The dial, once noq made the connection under `handle`: its entry is
    inserted, and the upgrade requested. -/
def State.dialed (s : State) (peer : EndpointId) (remote : SocketAddr)
    (handle : ConnectionHandle) (upgradeKey : Option RelayKey) : Except Fault (State × ℕ) := do
  let (s, epoch) ← s.insertConn handle (.dialed peer) remote (some peer) false
  return (kickPump { s with
    pendingUpgrades := s.pendingUpgrades ++ (upgradeKey.map fun key => (peer, key)).toList }, epoch)

/-- Close the connection a resource was minted for, unless it has failed or
    drained, and kick the pump. -/
def State.closeConnection (s : State) (handle : ConnectionHandle) (epoch : ℕ) (code : ℕ)
    (reason : Bytes) : State :=
  match s.entryFor handle epoch with
  | none => s
  | some entry =>
    if entry.error.isNone && !entry.drained then
      kickPump { s with
        conns := s.conns.insert handle { entry with conn := entry.conn.close code reason } }
    else s

/-- The drop of an armed `DialGuard`. -/
def State.dropDialGuard (s : State) (handle : ConnectionHandle) (epoch : ℕ) : State :=
  s.closeConnection handle epoch 0 "connect cancelled".toUTF8.toList

/-- The drop of a `connection`: `close(0, "")`. -/
def State.dropConnection (s : State) (handle : ConnectionHandle) (epoch : ℕ) : State :=
  s.closeConnection handle epoch (appCode 0) []

/-! ## The system -/

/-- A bound endpoint, with everything in flight. -/
structure Sys where
  config : Config
  st : State
  now : Instant
  /-- The task between two awaits, if it is not the pump. -/
  running : Option TaskId
  pump : Pump
  connects : Table TaskId ConnectTask
  /-- The `accept` calls that are parked. -/
  accepts : List TaskId
  /-- The connections that the application has not dropped. -/
  connections : Table ResId ConnectionRes
  /-- The streams that were handed out. -/
  streams : List StreamRes
  /-- The connections whose paths are watched, by the task behind
      `path_changes`. -/
  watches : List ConnectionRes
  sessions : Table TaskId SignalingSession
  nextSession : TaskId
  /-- The number of relay connections and of channel wires that were opened. -/
  relayConns : ℕ
  channelWires : ℕ
  /-- The connections that were opened for the home relay. -/
  homeConns : List RelayConn
  registrations : List Registration

namespace Sys

/-- A task that is not the pump may run: the pump awaits, and no other task is
    between two awaits. -/
def mayRun (s : Sys) (tid : TaskId) : Bool :=
  s.pump.pc.awaits && (s.running == none || s.running == some tid)

/-- A new piece of work may start: nothing is between two awaits. -/
def quiet (s : Sys) : Bool := s.pump.pc.awaits && s.running == none

/-- The endpoint that `bind` returns, with the state in which its home relay is
    registered. -/
def bound (config : Config) (now : Instant) (st : State) : Sys where
  config := config
  st := st
  now := now
  running := none
  pump :=
    { pc := .top
      relayRecvs := []
      channelRecvs := []
      udpRecv := config.udp
      redial := none
      backoff := ⟨0, some now⟩
      forceWake := false }
  connects := ∅
  accepts := []
  connections := ∅
  streams := []
  watches := []
  sessions := ∅
  nextSession := 0
  relayConns := 1
  channelWires := 0
  homeConns := [⟨0⟩]
  registrations := []

/-- Move the pump to `pc`. -/
def goto (s : Sys) (pc : PumpPc) : Sys := { s with pump := { s.pump with pc := pc } }

/-- Arm the redial of the home relay. -/
def armRedial (s : Sys) (random : Option (UInt8 × UInt8)) : Sys :=
  let (delay, backoff) := nextRedialDelay s.pump.backoff s.now random
  { s with pump := { s.pump with redial := some ⟨delay⟩, backoff := backoff } }

/-- A failure of a connection of the home relay: the call that retires it arms
    the redial. -/
def failHome (s : Sys) (conn : RelayConn) (random : Option (UInt8 × UInt8)) : Sys :=
  match s.st.retireHome conn with
  | (st, true) => armRedial { s with st := st } random
  | (st, false) => { s with st := st }

/-- A receive on a pooled relay failed. A failure of a connection the pool has
    moved on from is stale. -/
def failReceive (s : Sys) (key : RelayKey) (conn : RelayConn)
    (random : Option (UInt8 × UInt8)) : Sys :=
  if !s.st.isPoolCurrent key conn then s
  else if key = homeRelay then s.failHome conn random
  else { s with st := s.st.failRelay key }

/-- The redial failed: the next one is armed, unless the endpoint is closed. -/
def failRedial (s : Sys) (random : Option (UInt8 × UInt8)) : Sys :=
  if s.st.closed then s else s.armRedial random

/-- A relay receive resolved. Only the pool's current connection is re-armed. -/
def takeRelayRecv (s : Sys) (key : RelayKey) (conn : RelayConn) : Sys :=
  { s with pump := { s.pump with
    relayRecvs := s.pump.relayRecvs.erase (key, conn) ++
      if s.st.isPoolCurrent key conn then [(key, conn)] else [] } }

/-- A channel receive resolved. A retired channel is not re-armed. -/
def takeChannelRecv (s : Sys) (id : ChannelId) (wire : ChannelWire) : Sys :=
  { s with pump := { s.pump with
    channelRecvs := s.pump.channelRecvs.erase (id, wire) ++
      ((s.st.channels.lookup id).map fun e => (id, e.wire)).toList } }

/-- The liveness verdict on one pooled relay. -/
def sweepOne (verdict : RelayConn → ProbeStep) (random : Option (UInt8 × UInt8)) (s : Sys)
    (entry : Sigma fun _ : RelayKey => RelayConn) : Sys :=
  match verdict entry.2 with
  | .dead =>
    if entry.1 = homeRelay then s.failHome entry.2 random
    else { s with st := s.st.failRelay entry.1 }
  | .ping | .healthy => s

/-- The liveness sweep over a copy of the pool. -/
def sweep (s : Sys) (verdict : RelayConn → ProbeStep) (random : Option (UInt8 × UInt8)) : Sys :=
  s.st.relayPool.entries.foldl (sweepOne verdict random) s

/-- Spawn the offerer session of one requested upgrade. -/
def spawnUpgrade (s : Sys) (upgrade : EndpointId × RelayKey) : Sys :=
  { s with
    sessions := s.sessions.insert s.nextSession ⟨upgrade.1, .offerer, upgrade.2, false, []⟩
    nextSession := s.nextSession + 1 }

/-- Spawn the answerer session of a peer whose slot was just claimed. -/
def spawnAnswerer (s : Sys) (source : EndpointId) (via : RelayKey) : Sys :=
  { s with
    sessions := s.sessions.insert s.nextSession ⟨source, .answerer, via, true, []⟩
    nextSession := s.nextSession + 1 }

/-- Inbound signaling, spawning an answerer for a peer without a session. -/
def handleSignal (s : Sys) (via : RelayKey) (source : EndpointId) (payload : Bytes) : Sys :=
  match s.st.handleSignal via source payload with
  | (st, true) => spawnAnswerer { s with st := st } source via
  | (st, false) => { s with st := st }

/-- The call `tid` reached `phase`, and goes on. -/
def proceed (s : Sys) (tid : TaskId) (task : ConnectTask) (phase : ConnectPhase) : Sys :=
  { s with
    connects := s.connects.insert tid { task with phase := phase }
    running := some tid }

/-- The call `tid` reached `phase`, where it awaits or ends. -/
def pause (s : Sys) (tid : TaskId) (task : ConnectTask) (phase : ConnectPhase) : Sys :=
  { s with
    connects := s.connects.insert tid { task with phase := phase }
    running := none }

end Sys

/-- Whether a relayed datagram is a signal, by its first byte. -/
def isSignal (payload : Bytes) : Bool := payload.head? == some signalPrefix

end IrohEndpoint

