import IrohEndpoint.State

/-!
# What the operations wait for

An operation that cannot complete parks in `wait_until`, which runs a *check*
against the shared state until it produces a value. The checks of the eleven
operations that park are here, each a function of the state giving the value,
or `none` to park again, with the synchronous readers of a connection.

A check that changes the state returns it. The answers of noq to the calls a
check makes are arguments.
-/

namespace IrohEndpoint

/-- How noq answers a write on a stream. -/
inductive WriteAnswer
  | written (count : ℕ)
  | blocked
  | stopped (code : ℕ)
  | closedStream
  deriving DecidableEq

/-- How noq answers an ordered read on a stream: refusing the read, or with the
    next of its chunks. -/
inductive ReadAnswer
  | closedStream
  | illegalOrderedRead
  | chunk (bytes : Bytes)
  | fin
  | blocked
  | reset (code : ℕ)
  deriving DecidableEq

/-- The queue of the streams of one direction that the peer opened. -/
def ConnEntry.queue (entry : ConnEntry) : Dir → List StreamId
  | .bi => entry.biQueue
  | .uni => entry.uniQueue

/-- The entry with the queue of one direction changed. -/
def ConnEntry.setQueue (entry : ConnEntry) (dir : Dir) (queue : List StreamId) : ConnEntry :=
  match dir with
  | .bi => { entry with biQueue := queue }
  | .uni => { entry with uniQueue := queue }

namespace State

variable (s : State) (handle : ConnectionHandle) (epoch : ℕ)

/-! ## Dialing and accepting -/

/-- How the failure of a dial is reported: a dial that dies before connecting
    failed to connect. -/
def dialError : Error → Error
  | .closed => .closed
  | .timedOut msg => .timedOut msg
  | .other msg => .connectFailed msg
  | err => err

/-- What `connect` waits for once it has dialed. -/
def connectCheck : Option (Except Error Unit) :=
  match s.entryFor handle epoch with
  | none => some (.error .closed)
  | some entry =>
    match entry.error with
    | some err => some (.error (dialError err))
    | none => if entry.connected then some (.ok ()) else none

/-- The first connection of a queue that is still current, and the queue after
    it: the elements before it are skipped. -/
def popCurrent : List (ConnectionHandle × ℕ) →
    List (ConnectionHandle × ℕ) × Option (ConnectionHandle × ℕ)
  | [] => ([], none)
  | (handle, epoch) :: rest =>
    if (s.entryFor handle epoch).isSome then (rest, some (handle, epoch)) else popCurrent rest

/-- What `accept` waits for. -/
def acceptCheck : State × Option (Except Error (ConnectionHandle × ℕ)) :=
  match s.popCurrent s.acceptQueue with
  | (rest, some stamp) => ({ s with acceptQueue := rest }, some (.ok stamp))
  | (rest, none) =>
    ({ s with acceptQueue := rest }, if s.closed then some (.error .closed) else none)

/-- What a second dialer of a relay waits for, since `started`. -/
def ensureRelayCheck (normalized : String) (started now : Instant) :
    Option (Except Error RelayKey) :=
  match s.relayKeys.lookup normalized with
  | some key => some (.ok key)
  | none =>
    if normalized ∉ s.relayOpening then
      some (.error (.connectFailed "a concurrent open of this relay failed"))
    else if s.closed then some (.error .closed)
    else if now - started > relayOpenDeadline then
      some (.error (.timedOut "relay open timed out"))
    else none

/-! ## Streams and datagrams -/

/-- What `open_stream` waits for, with noq's answer to `open`. Blocked on
    stream credit, it kicks the pump once. -/
def openStreamCheck (kickedBlocked : Bool) (opened : Option StreamId) :
    State × Option (Except Error StreamId) :=
  match s.entryFor handle epoch with
  | none => (s, some (.error .closed))
  | some entry =>
    match entry.error, opened with
    | some err, _ => (s, some (.error err))
    | none, some id => (s, some (.ok id))
    | none, none => (if kickedBlocked then s else s.kickPump, none)

/-- What `accept_stream` waits for. -/
def acceptStreamCheck (dir : Dir) : State × Option (Except Error StreamId) :=
  match s.entryFor handle epoch with
  | none => (s, some (.error .closed))
  | some entry =>
    match entry.queue dir with
    | id :: rest =>
      ({ s with conns := s.conns.insert handle (entry.setQueue dir rest) }, some (.ok id))
    | [] => (s, entry.error.map .error)

/-- What `recv_datagram` waits for, with the datagram noq has buffered. -/
def recvDatagramCheck (received : Option Bytes) : Option (Except Error Bytes) :=
  match s.entryFor handle epoch with
  | none => some (.error .closed)
  | some entry =>
    match received with
    | some bytes => some (.ok bytes)
    | none => entry.error.map .error

/-- One pass of `write_all` over `len` bytes from `offset`, with noq's answer to
    a write at each offset: the new offset, and the outcome unless it parks. A
    pass makes at most `len + 1` writes, as all but the last one advance. -/
def writePass (answer : ℕ → WriteAnswer) (len : ℕ) : ℕ → ℕ → ℕ × Option (Except Error Unit)
  | 0, offset => (offset, none)
  | fuel + 1, offset =>
    match answer offset with
    | .written count =>
      if offset + count = len then (offset + count, some (.ok ()))
      else if count = 0 then (offset, none)
      else writePass answer len fuel (offset + count)
    | .blocked => (offset, none)
    | .stopped code => (offset, some (.error (.reset code)))
    | .closedStream => (offset, some (.error .closed))

/-- What `write_all` waits for, with the bytes written so far. A pass that wrote
    something kicks the pump. -/
def writeAllCheck (answer : ℕ → WriteAnswer) (len offset : ℕ) :
    State × ℕ × Option (Except Error Unit) :=
  match s.entryFor handle epoch with
  | none => (s, offset, some (.error .closed))
  | some entry =>
    match entry.error with
    | some err => (s, offset, some (.error err))
    | none =>
      let (offset', outcome) := writePass answer len (len + 1) offset
      (if offset' > offset then s.kickPump else s, offset', outcome)

/-- What `read_some` waits for, with noq's answer to the read. -/
def readSomeCheck (answer : ReadAnswer) : State × Option (Except Error (Option Bytes)) :=
  match s.entryFor handle epoch with
  | none => (s, some (.error .closed))
  | some entry =>
    match answer with
    | .closedStream =>
      (s, some (match entry.error with
        | some err => .error err
        | none => .ok none))
    | .illegalOrderedRead => (s, some (.error (.other "illegal ordered read")))
    | .chunk bytes => (s.kickPump, some (.ok (some bytes)))
    | .fin => (s.kickPump, some (.ok none))
    | .blocked => (s, entry.error.map .error)
    | .reset code => (s, some (.error (.reset code)))

/-! ## The end of a connection -/

/-- What `wait_closed` waits for. -/
def waitClosedCheck : Option (Option CloseInfo) :=
  match s.entryFor handle epoch with
  | none => some none
  | some entry => if entry.drained || entry.error.isSome then some entry.peerClose else none

/-- The wire currently carrying the packets of a connection, by the route of its
    one network path, if noq knows it (`known`). -/
def currentPath (known : Bool) : PathKind :=
  match s.entryFor handle epoch with
  | none => .relay
  | some entry =>
    if known then
      match s.routes.lookup entry.conn.remote with
      | some (.channel _) => .webrtc
      | some (.relay _) => .relay
      | none => .ip
    else .relay

/-- What the task behind `path_changes` waits for, after the element `last`: the
    next element, or the end of the stream. -/
def pathChangesCheck (known : Bool) (last : Option PathKind) : Option (Option PathKind) :=
  match s.entryFor handle epoch with
  | none => some none
  | some entry =>
    if entry.drained || entry.error.isSome then some none
    else if last = some (s.currentPath handle epoch known) then none
    else some (some (s.currentPath handle epoch known))

/-! ## Signaling -/

/-- What a signaling session waits for, since `started`. -/
def nextSignalCheck (peer : EndpointId) (started now : Instant) :
    State × Option (Except Error Bytes) :=
  if s.closed then (s, some (.error .closed))
  else match s.popSignalInbox peer with
    | (s', some payload) => (s', some (.ok payload))
    | (s', none) =>
      (s', if now - started > signalDeadline then
        some (.error (.connectFailed "webrtc signaling timed out")) else none)

/-! ## Reading a connection -/

/-- `connection.peer`. -/
def connectionPeer : Bytes :=
  match s.entryFor handle epoch with
  | none => []
  | some entry => (entry.peer.map Vector.toList).getD []

/-- `connection.alpn`. -/
def connectionAlpn : Bytes :=
  match s.entryFor handle epoch with
  | none => []
  | some entry => entry.alpn

/-- `connection.state`. -/
def connectionState : ConnectionState :=
  match s.entryFor handle epoch with
  | none => .closed
  | some entry =>
    if entry.drained || entry.error.isSome then .closed
    else if entry.connected then .open
    else .connecting

end State

end IrohEndpoint
