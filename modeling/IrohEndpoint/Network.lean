import IrohEndpoint.Calls
import IrohEndpoint.RelayFrames

/-!
# Endpoints on a relay network

Bound endpoints that send datagrams to each other over a relay. The relay
carries two kinds of datagrams: the QUIC packets that noq produces, as a transmit
of a connection or as a response of its endpoint, and the signals that `publish`
produces, marked by a leading `signalPrefix`. A datagram does not say which it
is; the receiving pump tells by its first byte (`dispatch`).

A `Net` is a family of endpoints with what is in flight between them. With each
datagram it keeps what produced it (`Sent`), which no endpoint sees, and it
records how each datagram that arrived was handled (`Net.log`). Every endpoint
of a network runs as an endpoint does (`endpoint_of_network`), and whatever it
may do alone it may do in the network (`Net.Step.of_endpoint`).

The relay and noq are outside this development. Of the relay it is taken that it
delivers a datagram unchanged, under the identity of its sender
(`Relay.forwards`); of noq, which first bytes a packet may have
(`Packet.MayEmit`).

The invariant of a network (`Net.Inv`) says what every datagram is, from the
queue of its sender to the log. `Step.relayQueue` is the reason that there are
only two kinds: nothing but the pump and `publish` adds to a relay queue.
-/

namespace IrohEndpoint

open Transition

/-! ## Packets -/

/-- The first byte of a QUIC packet as it is on the wire. Its low bits are under
    header protection, and have any value. -/
inductive Header
  /-- A long header: the fixed bit, two bits of packet type and four protected
      ones. -/
  | long (fixed : Bool) (bits : BitVec 6)
  /-- A short header: the fixed bit, the spin bit and five protected bits. -/
  | short (fixed spin : Bool) (masked : BitVec 5)
  deriving DecidableEq

namespace Header

/-- The fixed bit. -/
def fixed : Header → Bool
  | long fixed _ | short fixed _ _ => fixed

/-- The byte, from its highest bit, which is the form of the header. -/
def byte : Header → UInt8
  | long fixed bits => ⟨1#1 ++ BitVec.ofBool fixed ++ bits⟩
  | short fixed spin masked => ⟨0#1 ++ BitVec.ofBool fixed ++ BitVec.ofBool spin ++ masked⟩

end Header

/-- A QUIC packet, by its first byte. -/
structure Packet where
  header : Header
  rest : Bytes
  deriving DecidableEq

/-- The packet on the wire. -/
def Packet.bytes (p : Packet) : Bytes := p.header.byte :: p.rest

/-- What the first byte of a packet depends on in noq's `EndpointConfig`: whether
    the endpoint advertises, and uses, the greasing of the fixed bit. -/
structure EndpointConfig where
  greaseQuicBit : Bool

/-- The configuration that `bind` builds. It leaves the greasing at noq's default,
    on. -/
def EndpointConfig.bind : EndpointConfig := ⟨true⟩

/-- noq may emit the packet to a peer with the same configuration: the fixed bit is
    set, unless both sides grease it. -/
def Packet.MayEmit (config : EndpointConfig) (p : Packet) : Prop :=
  p.header.fixed = true ∨ config.greaseQuicBit = true

/-! ## Sending and receiving -/

/-- What a relay datagram was produced by. -/
inductive Sent
  /-- By noq. -/
  | noq (packet : Packet)
  /-- By `publish`, with the signal as JSON. -/
  | publish (json : Bytes)
  deriving DecidableEq

namespace Sent

/-- The datagram. -/
def bytes : Sent → Bytes
  | noq packet => packet.bytes
  | publish json => signalPrefix :: json

/-- It may be produced by an endpoint with this configuration. -/
def Valid (config : EndpointConfig) : Sent → Prop
  | noq packet => packet.MayEmit config
  | publish _ => True

end Sent

/-- What the pump passes a relay datagram to. -/
inductive Handled
  /-- `handle_relay_datagram`, which feeds noq. -/
  | datagram (payload : Bytes)
  /-- `handle_signal`. -/
  | signal (payload : Bytes)
  deriving DecidableEq

/-- How the pump tells signals from QUIC packets. -/
def dispatch (payload : Bytes) : Handled :=
  if isSignal payload then .signal payload.tail else .datagram payload

/-- A relay receive resolves with a datagram, to which noq, if it is fed, answers
    with `event`. -/
def Sys.receive (s : Sys) (key : RelayKey) (conn : RelayConn) (d : Datagram)
    (event : DatagramEvent) : Except Fault Sys :=
  match dispatch d.payload with
  | .signal payload => .ok (((s.takeRelayRecv key conn).handleSignal key d.source payload).goto .top)
  | .datagram _ => do
    let st ← s.st.handleRelayDatagram key d.source event
    return Sys.goto { s.takeRelayRecv key conn with st := st } .top

/-- A receive is a step of the pump. -/
theorem Sys.receive_pumpStep {s s' : Sys} {key : RelayKey} {conn : RelayConn} {d : Datagram}
    {event : DatagramEvent} (hpc : s.pump.pc.inSelect = true) (hrun : s.running = none)
    (hmem : (key, conn) ∈ s.pump.relayRecvs) (h : s.receive key conn d event = .ok s') :
    PumpStep s s' := by
  rw [receive, dispatch] at h
  by_cases hsig : isSignal d.payload
  · rw [if_pos hsig] at h
    cases h
    exact .relaySignal hpc hrun hmem hsig
  · rw [if_neg hsig] at h
    obtain ⟨st, hst, h⟩ := Except.bind_eq_ok.1 h
    cases h
    exact .relayDatagram hpc hrun hmem (by simpa using hsig) hst

/-- A relay: what it does with a frame of a client it has authenticated. -/
structure Relay where
  /-- The frames that go out for a frame, each with the client it goes to. -/
  forward : EndpointId → Bytes → List (EndpointId × Bytes)
  /-- A datagram is delivered to its destination, unchanged, under the identity of
      its sender. -/
  forwards : ∀ source dst payload out, out ∈ forward source (encodeClientDatagram dst payload) →
    ∃ ecn, out = (dst, relayDatagramFrame source ecn payload)

namespace Relay

/-- What a relay does that delivers every datagram once. -/
def forwardOnce (source : EndpointId) (frame : Bytes) : List (EndpointId × Bytes) :=
  match splitTag frame with
  | some (tag, payload) =>
    match tag == Tag.clientToRelayDatagram, EndpointId.ofSlice (payload.take 32),
      payload.drop 32 with
    | true, some dst, ecn :: contents => [(dst, relayDatagramFrame source ecn contents)]
    | _, _, _ => []
  | none => []

theorem forwardOnce_encodeClientDatagram (source dst : EndpointId) (payload : Bytes) :
    forwardOnce source (encodeClientDatagram dst payload) =
      [(dst, relayDatagramFrame source 0 payload)] := by
  rw [forwardOnce, splitTag_encodeClientDatagram]
  dsimp only
  rw [List.take_left' dst.length_toList, List.drop_left' dst.length_toList,
    EndpointId.ofSlice_toList]
  rfl

/-- A relay that delivers every datagram once. -/
def stock : Relay where
  forward := forwardOnce
  forwards source dst payload out h := by
    rw [forwardOnce_encodeClientDatagram] at h
    exact ⟨0, List.mem_singleton.1 h⟩

end Relay

/-! ## The network -/

/-- A datagram that was sent: its sender, what it was produced by, and its frame. -/
structure Carried where
  sender : EndpointId
  sent : Sent
  frame : Bytes

/-- A datagram that arrived: its sender and what it was produced by, the source it
    arrived under, and how it was handled. -/
structure Delivery where
  sender : EndpointId
  sent : Sent
  source : EndpointId
  handled : Handled

/-- Endpoints on a relay network. -/
structure Net (ι : Type*) where
  endpoints : ι → Sys
  /-- What the datagrams in the relay queue of each endpoint were produced by. -/
  outbox : ι → List Sent
  /-- The datagrams that were sent. -/
  flight : List Carried
  /-- The datagrams that arrived. -/
  log : List Delivery

/-- The datagrams in the relay queue. -/
def State.relayPayloads (s : State) : List Bytes := s.relayOutbound.map fun item => item.2.2

namespace Net

variable {ι : Type*} [DecidableEq ι]

/-- The endpoint `i` took a step. -/
def set (n : Net ι) (i : ι) (s : Sys) (outbox : List Sent) : Net ι :=
  { n with
    endpoints := Function.update n.endpoints i s
    outbox := Function.update n.outbox i outbox }

@[simp] theorem set_endpoints_self (n : Net ι) (i : ι) (s : Sys) (outbox : List Sent) :
    (n.set i s outbox).endpoints i = s := by
  simp only [set, Function.update_self]

@[simp] theorem set_outbox_self (n : Net ι) (i : ι) (s : Sys) (outbox : List Sent) :
    (n.set i s outbox).outbox i = outbox := by
  simp only [set, Function.update_self]

/-- The last step counts. -/
@[simp] theorem set_set (n : Net ι) (i : ι) (s s' : Sys) (outbox outbox' : List Sent) :
    (n.set i s outbox).set i s' outbox' = n.set i s' outbox' := by
  simp only [set, Function.update_idem]

@[simp] theorem set_self (n : Net ι) (i : ι) : n.set i (n.endpoints i) (n.outbox i) = n := by
  simp only [set, Function.update_eq_self]

/-- A step of the network, whose endpoints have the identities `id`. -/
inductive Step (id : ι → EndpointId) (relay : Relay) (config : EndpointConfig) :
    Net ι → Net ι → Prop
  /-- A step that leaves the relay queue as it is. -/
  | keep {n : Net ι} {i : ι} {s : Sys} :
      IrohEndpoint.Step (n.endpoints i) s →
      s.st.relayPayloads = (n.endpoints i).st.relayPayloads →
      Step id relay config n (n.set i s (n.outbox i))
  /-- The pump queues packets of noq. -/
  | transmit {n : Net ι} {i : ι} {s : Sys} {queued : List Sent} :
      PumpStep (n.endpoints i) s →
      (∀ sent ∈ queued, ∃ packet, sent = .noq packet ∧ packet.MayEmit config) →
      s.st.relayPayloads = (n.endpoints i).st.relayPayloads ++ queued.map Sent.bytes →
      Step id relay config n (n.set i s (n.outbox i ++ queued))
  /-- A signaling session queues a signal. -/
  | publish {n : Net ι} {i : ι} {s : Sys} {json : Bytes} :
      SessionStep (n.endpoints i) s →
      s.st.relayPayloads = (n.endpoints i).st.relayPayloads ++ [signalPrefix :: json] →
      Step id relay config n (n.set i s (n.outbox i ++ [.publish json]))
  /-- The pump takes a datagram from the queue, and it is lost. -/
  | lose {n : Net ι} {i : ι} {s : Sys} {item : RelayKey × EndpointId × Bytes} {sent : Sent}
      {rest : List Sent} :
      PumpStep (n.endpoints i) s →
      (n.endpoints i).st.relayOutbound = item :: s.st.relayOutbound →
      n.outbox i = sent :: rest →
      Step id relay config n (n.set i s rest)
  /-- The pump takes a datagram from the queue, and sends it. -/
  | send {n : Net ι} {i : ι} {s : Sys} {key : RelayKey} {peer : EndpointId} {payload : Bytes}
      {conn : RelayConn} {sent : Sent} {rest : List Sent} :
      PumpStep (n.endpoints i) s → s.pump.pc = .sendRelay key conn →
      (n.endpoints i).st.relayOutbound = (key, peer, payload) :: s.st.relayOutbound →
      n.outbox i = sent :: rest →
      Step id relay config n { n.set i s rest with
        flight := n.flight ++ [⟨id i, sent, encodeClientDatagram peer payload⟩] }
  /-- A datagram arrives that was sent. It stays in flight: a relay that delivers it
      again, or out of order, is no different. -/
  | deliver {n : Net ι} {i : ι} {s : Sys} {carried : Carried} {frame : Bytes} {d : Datagram}
      {key : RelayKey} {conn : RelayConn} {event : DatagramEvent} {queued : List Sent} :
      carried ∈ n.flight → (id i, frame) ∈ relay.forward carried.sender carried.frame →
      d ∈ receivedDatagrams frame →
      (n.endpoints i).pump.pc.inSelect = true → (n.endpoints i).running = none →
      (key, conn) ∈ (n.endpoints i).pump.relayRecvs →
      (n.endpoints i).receive key conn d event = .ok s →
      (∀ sent ∈ queued, ∃ packet, sent = .noq packet ∧ packet.MayEmit config) →
      s.st.relayPayloads = (n.endpoints i).st.relayPayloads ++ queued.map Sent.bytes →
      Step id relay config n { n.set i s (n.outbox i ++ queued) with
        log := n.log ++ [⟨carried.sender, carried.sent, d.source, dispatch d.payload⟩] }

end Net

/-- The network: it starts with every endpoint bound, and nothing sent. -/
def network {ι : Type*} [DecidableEq ι] (id : ι → EndpointId) (relay : Relay)
    (config : EndpointConfig) : System (Net ι) where
  init := {n | (∀ i, n.endpoints i ∈ endpoint.init) ∧ (∀ i, n.outbox i = []) ∧ n.flight = [] ∧
    n.log = []}
  step := Net.Step id relay config

section Endpoints

variable {ι : Type*} [DecidableEq ι] {id : ι → EndpointId} {relay : Relay}
  {config : EndpointConfig}

/-- A step of the network is a step of one endpoint. -/
theorem Net.Step.endpoint {n n' : Net ι} (h : Net.Step id relay config n n') :
    ∃ i s, IrohEndpoint.Step (n.endpoints i) s ∧
      n'.endpoints = Function.update n.endpoints i s := by
  cases h with
  | keep hst _ => exact ⟨_, _, hst, rfl⟩
  | transmit hst _ _ => exact ⟨_, _, .pump hst, rfl⟩
  | publish hst _ => exact ⟨_, _, .session hst, rfl⟩
  | lose hst _ _ => exact ⟨_, _, .pump hst, rfl⟩
  | send hst _ _ _ => exact ⟨_, _, .pump hst, rfl⟩
  | deliver _ _ _ hpc hrun hmem hrecv _ _ =>
    exact ⟨_, _, .pump (Sys.receive_pumpStep hpc hrun hmem hrecv), rfl⟩

/-- Every endpoint of a network runs as an endpoint does. -/
theorem endpoint_of_network (i : ι) :
    Simulation (network id relay config) endpoint fun n => n.endpoints i where
  init n hn := hn.1 i
  step n n' _ _ h := by
    obtain ⟨j, s, hst, heq⟩ := Net.Step.endpoint h
    rw [heq]
    by_cases hij : i = j
    · subst hij
      rw [Function.update_self]
      exact .single hst
    · rw [Function.update_of_ne hij]
      exact .refl

end Endpoints

/-! ## The relay queue -/

/-- Datagrams were added to the relay queue. -/
def State.Appends (s s' : State) : Prop :=
  ∃ queued, s'.relayOutbound = s.relayOutbound ++ queued

namespace State

variable {s s' : State}

/-- The relay queue is as it was. -/
theorem Appends.of_eq (h : s'.relayOutbound = s.relayOutbound) : s.Appends s' :=
  ⟨[], by rw [h, List.append_nil]⟩

theorem Appends.trans {s₁ s₂ s₃ : State} (h₁ : s₁.Appends s₂) (h₂ : s₂.Appends s₃) :
    s₁.Appends s₃ := by
  obtain ⟨q₁, h₁⟩ := h₁
  obtain ⟨q₂, h₂⟩ := h₂
  exact ⟨q₁ ++ q₂, by rw [h₂, h₁, List.append_assoc]⟩

theorem pushResponse_appends (addr : SocketAddr) (source : Option EndpointId) (payload : Bytes) :
    s.Appends (s.pushResponse addr source payload) := by
  unfold pushResponse
  split
  · exact ⟨_, rfl⟩
  · exact .of_eq rfl
  · exact .of_eq rfl

theorem handleDatagram_appends {addr : SocketAddr} {source : Option EndpointId} {origin : Origin}
    {event : DatagramEvent} (h : s.handleDatagram addr source origin event = .ok s') :
    s.Appends s' := by
  rcases handleDatagram_cases h with rfl | ⟨packet, rfl⟩ | ⟨_, _, -, h⟩
  · exact .of_eq rfl
  · exact pushResponse_appends addr source packet
  · obtain ⟨-, -, -, rfl⟩ := insertConn_eq h
    exact .of_eq rfl

/-- A datagram fed to noq under a standin may be answered. -/
theorem enters_appends {peer : EndpointId} {via : RelayKey} {s₁ : State} {addr : SocketAddr}
    (h₁ : s.addrForPeer peer via = .ok (s₁, addr)) {source : Option EndpointId} {origin : Origin}
    {event : DatagramEvent} (h : s₁.handleDatagram addr source origin event = .ok s') :
    s.Appends s' := by
  have hstandin : s.Appends s₁ := .of_eq (by rw [addrForPeer_frame h₁])
  exact hstandin.trans (handleDatagram_appends h)

theorem drain_appends {polling : ConnectionHandle → Polling} {b : Bool}
    (h : s.drain polling = .ok (s', b)) : s.Appends s' := by
  refine drain_rel (R := Appends) (fun _ => .of_eq rfl) (fun _ _ _ => Appends.trans)
    (fun handle s e s' h => ?_) (fun s t s' h => ?_) (fun s handle isDrained => ?_) h
  · rw [pollEvent] at h
    split at h
    · cases h
      exact .of_eq rfl
    · split at h <;> cases h
      exact .of_eq rfl
  · rw [routeTransmit] at h
    split at h
    · split at h <;> cases h
      exact ⟨_, rfl⟩
    · cases h
      exact .of_eq rfl
    · cases h
      exact .of_eq rfl
  · rw [markDrained]
    split
    · exact .of_eq rfl
    · split <;> exact .of_eq rfl

end State

/-- The pump adds to the relay queue, or takes its first datagram. -/
theorem PumpStep.relayQueue {s s' : Sys} (h : PumpStep s s') :
    s.st.Appends s'.st ∨ ∃ item, s.st.relayOutbound = item :: s'.st.relayOutbound := by
  cases h with
  | drain _ hd =>
    have hqueued := State.drain_appends hd
    refine .inl ?_
    split
    · exact hqueued
    · exact hqueued
  | relayLost _ hq => exact .inr ⟨_, hq⟩
  | relaySend _ hq => exact .inr ⟨_, hq⟩
  | relaySendFailed =>
    refine .inl (.of_eq ?_)
    split
    · exact congrArg (fun s => s.st.relayOutbound) (s.failHome_fails _ _)
    · rfl
  | arm =>
    rw [Sys.foldl_spawnUpgrade_frame]
    exact .inl (.of_eq rfl)
  | relaySignal =>
    rw [Sys.handleSignal_frame]
    exact .inl (.of_eq rfl)
  | relayDatagram _ _ _ _ hd =>
    obtain ⟨s₁, addr, h₁, h₂⟩ := State.handleRelayDatagram_eq hd
    exact .inl (State.enters_appends h₁ h₂)
  | relayFailed =>
    exact .inl (.of_eq (congrArg (fun s => s.st.relayOutbound) (Sys.failReceive_fails _ _ _ _)))
  | udpReceived _ _ _ hd =>
    exact .inl (State.handleDatagram_appends hd)
  | channelDatagram _ _ _ hd =>
    rcases State.handleChannelDatagram_cases hd with ⟨-, rfl⟩ | ⟨entry, s₁, addr, -, h₁, h₂⟩
    · exact .inl (.of_eq rfl)
    · exact .inl (State.enters_appends h₁ h₂)
  | channelFailed =>
    rw [State.retireChannel_frame]
    exact .inl (.of_eq rfl)
  | redialFailed =>
    rw [Sys.failRedial]
    split <;> exact .inl (.of_eq rfl)
  | tick =>
    exact .inl (.of_eq (congrArg (fun s => s.st.relayOutbound) (Sys.sweep_fails _ _ _)))
  | closeRelays =>
    rw [State.foldl_closeRelay]
    exact .inl (.of_eq rfl)
  | closeWires =>
    rw [State.foldl_closeWire]
    exact .inl (.of_eq rfl)
  | _ => exact .inl (.of_eq rfl)

/-- A `connect` call leaves the relay queue as it is. -/
theorem ConnectStep.relayOutbound {s s' : Sys} (h : ConnectStep s s') :
    s'.st.relayOutbound = s.st.relayOutbound := by
  rw [h.frame]

/-- A signaling session leaves the relay queue as it is, or adds a signal to it. -/
theorem SessionStep.relayQueue {s s' : Sys} (h : SessionStep s s') :
    s'.st.relayOutbound = s.st.relayOutbound ∨ ∃ relay peer json,
      s'.st.relayOutbound = s.st.relayOutbound ++ [(relay, peer, signalPrefix :: json)] := by
  cases h with
  | begin _ _ _ hb =>
    obtain ⟨-, rfl⟩ := State.beginSignaling_eq hb
    exact .inl rfl
  | publish => exact .inr ⟨_, _, _, rfl⟩
  | receive =>
    rw [State.nextSignalCheck_frame]
    exact .inl rfl
  | upgraded _ _ _ _ hr | answered _ _ _ _ hr =>
    rw [State.registerChannel_frame hr]
    exact .inl rfl
  | _ => exact .inl rfl

/-- Every other step leaves the relay queue as it is: what is sent over a relay was
    queued by the pump, or is a signal. -/
theorem Step.relayQueue {s s' : Sys} (h : Step s s') :
    s'.st.relayOutbound = s.st.relayOutbound ∨
      (PumpStep s s' ∧
        (s.st.Appends s'.st ∨ ∃ item, s.st.relayOutbound = item :: s'.st.relayOutbound)) ∨
      (SessionStep s s' ∧ ∃ relay peer json,
        s'.st.relayOutbound = s.st.relayOutbound ++ [(relay, peer, signalPrefix :: json)]) := by
  rcases h.cases with h | h | h | h
  · exact .inr (.inl ⟨h, h.relayQueue⟩)
  · exact .inl h.relayOutbound
  · rcases h.relayQueue with hkeep | hpublish
    · exact .inl hkeep
    · exact .inr (.inr ⟨h, hpublish⟩)
  · exact .inl (by rw [h.frame])

/-! ## The invariant -/

namespace Net

variable {ι : Type*} [DecidableEq ι] {id : ι → EndpointId} {relay : Relay}
  {config : EndpointConfig} {n n' : Net ι}

/-- The invariant of a network. -/
structure Inv (config : EndpointConfig) (n : Net ι) : Prop where
  /-- The outbox of an endpoint says what the datagrams in its relay queue are. -/
  tracked : ∀ i, (n.endpoints i).st.relayPayloads = (n.outbox i).map Sent.bytes
  /-- What was queued may be produced by an endpoint. -/
  queued : ∀ i, ∀ sent ∈ n.outbox i, sent.Valid config
  /-- What was sent is in the frame of a client. -/
  carried : ∀ c ∈ n.flight, c.sent.Valid config ∧
    ∃ dst, c.frame = encodeClientDatagram dst c.sent.bytes
  /-- What arrived is what was sent, under the identity of its sender, and was
      handled by its first byte. -/
  delivered : ∀ d ∈ n.log, d.sent.Valid config ∧ d.source = d.sender ∧
    d.handled = dispatch d.sent.bytes

/-- What noq may emit may be produced by an endpoint. -/
theorem valid_of_noq {queued : List Sent}
    (h : ∀ sent ∈ queued, ∃ packet, sent = .noq packet ∧ packet.MayEmit config) :
    ∀ sent ∈ queued, sent.Valid config := by
  intro sent hsent
  obtain ⟨packet, rfl, hp⟩ := h sent hsent
  exact hp

/-- An endpoint takes a step that its outbox follows. -/
theorem Inv.set (h : n.Inv config) {i : ι} {s : Sys} {outbox : List Sent}
    (htracked : s.st.relayPayloads = outbox.map Sent.bytes)
    (hqueued : ∀ sent ∈ outbox, sent.Valid config) : (n.set i s outbox).Inv config := by
  refine { h with tracked := fun j => ?_, queued := fun j => ?_ }
  · by_cases hj : j = i
    · subst hj
      simpa using htracked
    · simpa only [Net.set, Function.update_of_ne hj] using h.tracked j
  · by_cases hj : j = i
    · subst hj
      simpa using hqueued
    · simpa only [Net.set, Function.update_of_ne hj] using h.queued j

/-- An endpoint queues datagrams. -/
theorem Inv.append (h : n.Inv config) {i : ι} {s : Sys} {queued : List Sent}
    (htracked : s.st.relayPayloads =
      (n.endpoints i).st.relayPayloads ++ queued.map Sent.bytes)
    (hqueued : ∀ sent ∈ queued, sent.Valid config) :
    (n.set i s (n.outbox i ++ queued)).Inv config := by
  refine h.set ?_ fun sent hsent => ?_
  · rw [htracked, h.tracked, List.map_append]
  · rcases List.mem_append.1 hsent with hsent | hsent
    · exact h.queued i sent hsent
    · exact hqueued sent hsent

/-- An endpoint takes a datagram from its relay queue: the first of its outbox. -/
theorem Inv.pop (h : n.Inv config) {i : ι} {s : Sys} {item : RelayKey × EndpointId × Bytes}
    {sent : Sent} {rest : List Sent}
    (hitem : (n.endpoints i).st.relayOutbound = item :: s.st.relayOutbound)
    (hrest : n.outbox i = sent :: rest) :
    item.2.2 = sent.bytes ∧ sent.Valid config ∧ (n.set i s rest).Inv config := by
  have htracked := h.tracked i
  rw [State.relayPayloads, hitem, hrest, List.map_cons, List.map_cons, List.cons.injEq] at htracked
  have hqueued := h.queued i
  rw [hrest] at hqueued
  exact ⟨htracked.1, hqueued sent List.mem_cons_self,
    h.set htracked.2 fun sent' hsent => hqueued sent' (List.mem_cons_of_mem _ hsent)⟩

/-- What a relay delivers is what was sent, under the identity of its sender. -/
theorem received_eq {source dst client : EndpointId} {payload frame : Bytes} {d : Datagram}
    (hforward : (client, frame) ∈ relay.forward source (encodeClientDatagram dst payload))
    (hd : d ∈ receivedDatagrams frame) : d = ⟨source, payload⟩ := by
  obtain ⟨ecn, hout⟩ := relay.forwards _ _ _ _ hforward
  cases hout
  rw [receivedDatagrams_relayDatagramFrame] at hd
  exact List.mem_singleton.1 hd

/-- A step keeps the invariant. -/
theorem Inv.step (h : n.Inv config) (hst : Step id relay config n n') : n'.Inv config := by
  cases hst with
  | keep _ hkeep => exact h.set (hkeep.trans (h.tracked _)) (h.queued _)
  | transmit _ hnoq hqueued => exact h.append hqueued (valid_of_noq hnoq)
  | publish _ hqueued => exact h.append hqueued fun _ hsent => List.mem_singleton.1 hsent ▸ trivial
  | lose _ hitem hrest => exact (h.pop hitem hrest).2.2
  | send _ _ hitem hrest =>
    obtain ⟨hbytes, hvalid, hset⟩ := h.pop hitem hrest
    refine { hset with carried := fun c hc => ?_ }
    rcases List.mem_append.1 hc with hc | hc
    · exact h.carried c hc
    · obtain rfl := List.mem_singleton.1 hc
      exact ⟨hvalid, _, congrArg (encodeClientDatagram _) hbytes⟩
  | deliver hc hforward hd _ _ _ _ hnoq hqueued =>
    refine { h.append hqueued (valid_of_noq hnoq) with delivered := fun d hd' => ?_ }
    rcases List.mem_append.1 hd' with hd' | hd'
    · exact h.delivered d hd'
    · -- What the relay delivers is what the sender's pump had queued.
      obtain rfl := List.mem_singleton.1 hd'
      obtain ⟨hvalid, dst, hframe⟩ := h.carried _ hc
      rw [hframe] at hforward
      obtain rfl := received_eq hforward hd
      exact ⟨hvalid, rfl, rfl⟩

/-- The invariant holds in every reachable state. -/
theorem Inv.reachable (hn : (network id relay config).Reachable n) : n.Inv config := by
  refine hn.invariant (fun n hn => ?_) fun _ _ _ hst h => h.step hst
  obtain ⟨hendpoints, houtbox, hflight, hlog⟩ := hn
  refine ⟨fun i => ?_, fun i => ?_, ?_, ?_⟩
  · obtain ⟨config, webrtc, now, st, key, hr, heq⟩ := hendpoints i
    obtain ⟨-, -, rfl⟩ := State.registerRelay_eq hr
    rw [heq, houtbox]
    rfl
  · rw [houtbox]
    exact nofun
  · rw [hflight]
    exact nofun
  · rw [hlog]
    exact nofun

/-- Whatever an endpoint may do alone, it may do in the network, as long as the
    packets that noq gives its pump are packets that noq may emit. -/
theorem Step.of_endpoint (h : n.Inv config) {i : ι} {s : Sys}
    (hst : IrohEndpoint.Step (n.endpoints i) s)
    (hnoq : PumpStep (n.endpoints i) s → ∀ queued : List (RelayKey × EndpointId × Bytes),
      s.st.relayOutbound = (n.endpoints i).st.relayOutbound ++ queued →
      ∀ item ∈ queued, ∃ packet : Packet, packet.MayEmit config ∧ item.2.2 = packet.bytes) :
    ∃ n', Step id relay config n n' ∧ n'.endpoints = Function.update n.endpoints i s := by
  rcases hst.relayQueue with hkeep | ⟨hpump, ⟨queued, hqueued⟩ | ⟨item, hitem⟩⟩ |
    ⟨hsession, key, peer, json, hqueued⟩
  · exact ⟨_, .keep hst (congrArg (List.map _) hkeep), rfl⟩
  · -- Each datagram the pump queued is a packet.
    obtain ⟨packets, hpackets, hbytes⟩ : ∃ packets : List Packet,
        (∀ p ∈ packets, p.MayEmit config) ∧
          queued.map (fun item => item.2.2) = packets.map Packet.bytes := by
      have hall := hnoq hpump queued hqueued
      clear hqueued
      induction queued with
      | nil => exact ⟨[], nofun, rfl⟩
      | cons item queued ih =>
        obtain ⟨packet, hp, hb⟩ := hall item List.mem_cons_self
        obtain ⟨packets, hps, hbs⟩ := ih fun item' hmem => hall item' (List.mem_cons_of_mem _ hmem)
        refine ⟨packet :: packets, fun p hmem => ?_, by rw [List.map_cons, List.map_cons, hb, hbs]⟩
        rcases List.mem_cons.1 hmem with rfl | hmem
        · exact hp
        · exact hps p hmem
    refine ⟨n.set i s (n.outbox i ++ packets.map Sent.noq),
      .transmit hpump (fun sent hsent => ?_) ?_, rfl⟩
    · obtain ⟨packet, hmem, rfl⟩ := List.mem_map.1 hsent
      exact ⟨packet, rfl, hpackets packet hmem⟩
    · rw [State.relayPayloads, hqueued, List.map_append, hbytes, List.map_map]
      rfl
  · -- The outbox has the datagram that the pump takes.
    have htracked := h.tracked i
    rw [State.relayPayloads, hitem, List.map_cons] at htracked
    obtain ⟨sent, rest, hrest, -, -⟩ := List.map_eq_cons_iff.1 htracked.symm
    exact ⟨_, .lose hpump hitem hrest, rfl⟩
  · refine ⟨n.set i s (n.outbox i ++ [.publish json]), .publish hsession ?_, rfl⟩
    rw [State.relayPayloads, hqueued, List.map_append]
    rfl

/-- A run of an endpoint that leaves its relay queue as it is. -/
theorem leads_of_still {i : ι} {s : Sys}
    (h : (endpoint.restrict Sys.Still).Leads (n.endpoints i) s) :
    (network id relay config).Leads n (n.set i s (n.outbox i)) := by
  induction h with
  | refl => exact .of_eq (n.set_self i)
  | @tail s s' _ hst ih =>
    have hstep : Step id relay config (n.set i s (n.outbox i)) _ :=
      .keep (i := i) (s := s') (by rw [set_endpoints_self]; exact hst.1) (by
        rw [set_endpoints_self]
        exact congrArg (List.map _) hst.2.unsent)
    rw [set_outbox_self, set_set] at hstep
    exact ih.tail hstep

end Net

end IrohEndpoint
