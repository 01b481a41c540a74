import IrohEndpoint.RelayFrames

/-!
# The relay client

A connected relay client (`RelayConn` in `relay.rs`): the websocket, the datagrams
that were decoded and not yet delivered, and the state of the liveness probe.

The websocket is what the outside does with it: the messages that it will receive,
each with the reading of the clock at which it is received, the error that comes
after them, and how it answers a send. An error is the text the code formats of it.

* `recvDatagram` is one call of `recv_datagram`: it takes from the pending datagrams,
  or receives messages until one of them carries a datagram;
* `probeStep` is one step of the liveness probe.
-/

namespace IrohEndpoint

namespace Tag

def ping : UInt64 := 9
def pong : UInt64 := 10

end Tag

/-- Encode a `pong` frame echoing `payload`. -/
def encodePong (payload : Vector UInt8 8) : Bytes := Tag.pong.toUInt8 :: payload.toList

/-- A byte string as the payload of a ping. -/
def pingPayload (bytes : Bytes) : Option (Vector UInt8 8) :=
  if h : bytes.length = 8 then some ⟨bytes.toArray, h⟩ else none

/-- A websocket message. -/
inductive WsMessage
  | binary (frame : Bytes)
  | string (text : String)
  deriving DecidableEq

/-- A connected relay client. -/
structure RelayClient where
  /-- The messages that the websocket will receive, and when. -/
  inbound : List (Instant × WsMessage)
  /-- The error that a receive resolves with after them. -/
  receiveError : String
  /-- The error that a send resolves with after so many frames were sent, if it fails. -/
  sendError : ℕ → Option String
  /-- The frames that were sent. -/
  sent : List Bytes
  /-- Datagrams decoded but not yet delivered. -/
  pending : List Datagram
  /-- When this connection last saw any inbound message. -/
  lastInbound : Instant
  /-- When the outstanding liveness ping was sent, if one is unanswered. -/
  probe : Option Instant
  /-- The liveness ping payload counter. -/
  probeSeq : UInt64

namespace RelayClient

/-- Send a frame, reporting a failure under `label`. -/
def send (c : RelayClient) (label : String) (frame : Bytes) : RelayClient × Option String :=
  match c.sendError c.sent.length with
  | some e => (c, some (label ++ e))
  | none => ({ c with sent := c.sent ++ [frame] }, none)

/-! ## Receiving -/

/-- What `recv_datagram` does with a frame, by its type; the error if it fails. -/
def onFrame (c : RelayClient) (frame : Bytes) : RelayClient × Option String :=
  match splitTag frame with
  | none => (c, none)
  | some (tag, payload) =>
    if tag = Tag.relayToClientDatagram ∨ tag = Tag.relayToClientDatagramBatch then
      match decodeRelayDatagrams payload (tag == Tag.relayToClientDatagramBatch) with
      | none => (c, none)
      | some datagrams => ({ c with pending := c.pending ++ datagrams }, none)
    else if tag = Tag.ping then
      match pingPayload payload with
      | some ping => c.send "relay pong: " (encodePong ping)
      | none => (c, none)
    else (c, none)

/-- What `recv_datagram` does with a message. The liveness stamp comes first. -/
def onMessage (c : RelayClient) (now : Instant) (message : WsMessage) :
    RelayClient × Option String :=
  let c := { c with lastInbound := now }
  match message with
  | .binary frame => c.onFrame frame
  | .string _ => (c, none)

/-- The loop of `recv_datagram`, over the messages that are received. -/
def recvLoop : List (Instant × WsMessage) → RelayClient → Except String Datagram × RelayClient
  | inbound, c =>
    match c.pending with
    | datagram :: rest => (.ok datagram, { c with pending := rest, inbound := inbound })
    | [] =>
      match inbound with
      | [] => (.error ("relay: " ++ c.receiveError), { c with inbound := [] })
      | (now, message) :: inbound =>
        match c.onMessage now message with
        | (c, none) => recvLoop inbound c
        | (c, some e) => (.error e, { c with inbound := inbound })

/-- The next relayed datagram and its relay-authenticated sender. -/
def recvDatagram (c : RelayClient) : Except String Datagram × RelayClient :=
  c.recvLoop c.inbound

/-- The results of successive calls of `recv_datagram`. -/
def recvDatagrams : ℕ → RelayClient → List (Except String Datagram) × RelayClient
  | 0, c => ([], c)
  | n + 1, c =>
    let (result, c) := c.recvDatagram
    let (results, c) := recvDatagrams n c
    (result :: results, c)

/-! ## Liveness -/

/-- The verdict of one liveness step, with the payload of the ping to send. -/
inductive Verdict
  | healthy
  | ping (payload : Vector UInt8 8)
  | dead
  deriving DecidableEq

/-- `u64::to_le_bytes`. -/
def toLeBytes (n : UInt64) : Vector UInt8 8 :=
  Vector.ofFn fun i => (n >>> UInt64.ofNat (8 * i)).toUInt8

/-- A wire that is quiet for `quietAfter` gets a ping. -/
def probeQuiet (c : RelayClient) (now : Instant) (quietAfter : Duration) :
    Verdict × RelayClient :=
  if now - c.lastInbound ≥ quietAfter then
    let seq := c.probeSeq + 1
    (.ping (toLeBytes seq), { c with probe := some now, probeSeq := seq })
  else (.healthy, c)

/-- One liveness step at `now`: an answered probe is cleared, a wire that is quiet for
    `quietAfter` gets a ping, and a probe unanswered for `deadline` declares the wire
    dead. -/
def probeStep (c : RelayClient) (now : Instant) (quietAfter deadline : Duration) :
    Verdict × RelayClient :=
  match c.probe with
  | some sent =>
    if c.lastInbound > sent then { c with probe := none }.probeQuiet now quietAfter
    -- The probe stays set: a dead verdict is terminal for this connection.
    else if now - sent ≥ deadline then (.dead, c)
    else (.healthy, c)
  | none => c.probeQuiet now quietAfter

end RelayClient

end IrohEndpoint
