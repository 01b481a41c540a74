import IrohEndpoint.System.Basic

/-!
# The pump

The endpoint's I/O task, step by step. A turn of its loop drains the
connections, flushes the three queues (awaiting each send), arms the receives
of new relays and channels, spawns the requested upgrades, and waits in a
select for the next thing to happen: a relay, UDP or channel receive, the
redial of the home relay, a kick, or the tick. Once the endpoint is closed and
its connections have ended, or the linger is over, the pump leaves the loop,
closes the relays and the channels, and awaits the pending receives.

Between the points where it awaits (`PumpPc.awaits`), no other task runs.
-/

namespace IrohEndpoint

open State in
/-- A step of the pump. -/
inductive PumpStep : Sys → Sys → Prop
  /-- The top of the loop: drain, and wake the waiters if anything progressed. -/
  | drain {s : Sys} {polling : ConnectionHandle → Polling} {st : State} {progressed : Bool} :
      s.pump.pc = .top → s.st.drain polling = .ok (st, progressed) →
      PumpStep s { s with
        st := if progressed || s.pump.forceWake then st.wakeWaiters else st
        pump := { s.pump with forceWake := false, pc := .flushRelay } }
  | relayEmpty {s : Sys} :
      s.pump.pc = .flushRelay → s.st.relayOutbound = [] → PumpStep s (s.goto .flushUdp)
  /-- A datagram for a retired relay is lost. -/
  | relayLost {s : Sys} {key : RelayKey} {peer : EndpointId} {datagram : Bytes}
      {rest : List (RelayKey × EndpointId × Bytes)} :
      s.pump.pc = .flushRelay → s.st.relayOutbound = (key, peer, datagram) :: rest →
      s.st.relayPool.lookup key = none →
      PumpStep s { s with st := { s.st with relayOutbound := rest } }
  | relaySend {s : Sys} {key : RelayKey} {peer : EndpointId} {datagram : Bytes}
      {rest : List (RelayKey × EndpointId × Bytes)} {conn : RelayConn} :
      s.pump.pc = .flushRelay → s.st.relayOutbound = (key, peer, datagram) :: rest →
      s.st.relayPool.lookup key = some conn →
      PumpStep s (Sys.goto { s with st := { s.st with relayOutbound := rest } }
        (.sendRelay key conn))
  | relaySent {s : Sys} {key : RelayKey} {conn : RelayConn} :
      s.pump.pc = .sendRelay key conn → s.running = none → PumpStep s (s.goto .flushRelay)
  | relaySendFailed {s : Sys} {key : RelayKey} {conn : RelayConn}
      {random : Option (UInt8 × UInt8)} :
      s.pump.pc = .sendRelay key conn → s.running = none →
      PumpStep s
        ((if key = homeRelay then s.failHome conn random else s).goto .flushRelay)
  | udpEmpty {s : Sys} :
      s.pump.pc = .flushUdp → s.st.udpOutbound = [] → PumpStep s (s.goto .flushChannel)
  /-- Without a socket, a UDP datagram is dropped. -/
  | udpSend {s : Sys} {item : SocketAddr × Bytes} {rest : List (SocketAddr × Bytes)} :
      s.pump.pc = .flushUdp → s.st.udpOutbound = item :: rest →
      PumpStep s (Sys.goto { s with st := { s.st with udpOutbound := rest } }
        (if s.config.udp then .sendUdp else .flushUdp))
  | udpSent {s : Sys} :
      s.pump.pc = .sendUdp → s.running = none → PumpStep s (s.goto .flushUdp)
  | channelEmpty {s : Sys} :
      s.pump.pc = .flushChannel → s.st.channelOutbound = [] → PumpStep s (s.goto .arm)
  /-- A datagram for a retired channel is lost. -/
  | channelSend {s : Sys} {id : ChannelId} {datagram : Bytes} {rest : List (ChannelId × Bytes)} :
      s.pump.pc = .flushChannel → s.st.channelOutbound = (id, datagram) :: rest →
      PumpStep s (Sys.goto { s with st := { s.st with channelOutbound := rest } }
        (if (s.st.channels.lookup id).isSome then .sendChannel else .flushChannel))
  | channelSent {s : Sys} :
      s.pump.pc = .sendChannel → s.running = none → PumpStep s (s.goto .flushChannel)
  /-- Arm the new receives and spawn the requested upgrades. -/
  | arm {s : Sys} :
      s.pump.pc = .arm →
      PumpStep s (s.st.pendingUpgrades.foldl Sys.spawnUpgrade { s with
        st := { s.st with newRelays := [], newChannels := [], pendingUpgrades := [] }
        pump := { s.pump with
          pc := .check
          relayRecvs := s.pump.relayRecvs ++ s.st.newRelays
          channelRecvs := s.pump.channelRecvs ++ s.st.newChannels } })
  | leave {s : Sys} :
      s.pump.pc = .check → s.st.mayEnd s.now = true → PumpStep s (s.goto .leaving)
  | stay {s : Sys} :
      s.pump.pc = .check → s.st.mayEnd s.now = false → PumpStep s (s.goto .polling)
  /-- No arm is ready: the pump's waker is parked. -/
  | suspend {s : Sys} :
      s.pump.pc = .polling → s.st.pumpKicked = false →
      PumpStep s (Sys.goto { s with st := { s.st with pumpWaker := true } } .suspended)
  /-- A relay receive resolves with a datagram that is a signal. -/
  | relaySignal {s : Sys} {key : RelayKey} {conn : RelayConn} {source : EndpointId}
      {payload : Bytes} :
      s.pump.pc.inSelect = true → s.running = none → (key, conn) ∈ s.pump.relayRecvs →
      isSignal payload = true →
      PumpStep s (((s.takeRelayRecv key conn).handleSignal key source payload.tail).goto .top)
  /-- A relay receive resolves with a datagram for noq. -/
  | relayDatagram {s : Sys} {key : RelayKey} {conn : RelayConn} {source : EndpointId}
      {payload : Bytes} {event : DatagramEvent} {st : State} :
      s.pump.pc.inSelect = true → s.running = none → (key, conn) ∈ s.pump.relayRecvs →
      isSignal payload = false → s.st.handleRelayDatagram key source event = .ok st →
      PumpStep s (Sys.goto { s.takeRelayRecv key conn with st := st } .top)
  | relayFailed {s : Sys} {key : RelayKey} {conn : RelayConn} {random : Option (UInt8 × UInt8)} :
      s.pump.pc.inSelect = true → s.running = none → (key, conn) ∈ s.pump.relayRecvs →
      PumpStep s ((Sys.failReceive { s with
        pump := { s.pump with relayRecvs := s.pump.relayRecvs.erase (key, conn) } }
        key conn random).goto .top)
  | udpReceived {s : Sys} {remote : SocketAddr} {event : DatagramEvent} {st : State} :
      s.pump.pc.inSelect = true → s.running = none → s.pump.udpRecv = true →
      s.st.handleUdpDatagram remote event = .ok st →
      PumpStep s (Sys.goto { s with st := st } .top)
  /-- The socket died. -/
  | udpFailed {s : Sys} :
      s.pump.pc.inSelect = true → s.running = none → s.pump.udpRecv = true →
      PumpStep s (Sys.goto { s with pump := { s.pump with udpRecv := false } } .top)
  /-- A channel receive resolves with a datagram. -/
  | channelDatagram {s : Sys} {id : ChannelId} {wire : ChannelWire} {event : DatagramEvent}
      {st : State} :
      s.pump.pc.inSelect = true → s.running = none → (id, wire) ∈ s.pump.channelRecvs →
      s.st.handleChannelDatagram id event = .ok st →
      PumpStep s (Sys.goto { s.takeChannelRecv id wire with st := st } .top)
  /-- A channel receive resolves with a text message, which is skipped. -/
  | channelText {s : Sys} {id : ChannelId} {wire : ChannelWire} :
      s.pump.pc.inSelect = true → s.running = none → (id, wire) ∈ s.pump.channelRecvs →
      PumpStep s ((s.takeChannelRecv id wire).goto .top)
  /-- The channel died. -/
  | channelFailed {s : Sys} {id : ChannelId} {wire : ChannelWire} :
      s.pump.pc.inSelect = true → s.running = none → (id, wire) ∈ s.pump.channelRecvs →
      PumpStep s (Sys.goto { s with
        st := s.st.retireChannel id
        pump := { s.pump with channelRecvs := s.pump.channelRecvs.erase (id, wire) } } .top)
  /-- The redial of the home relay resolves with a new connection. -/
  | redialOpened {s : Sys} {redial : Redial} :
      s.pump.pc.inSelect = true → s.running = none → s.pump.redial = some redial →
      PumpStep s (Sys.goto { s with
        relayConns := s.relayConns + 1
        homeConns := s.homeConns ++ [⟨s.relayConns⟩]
        pump := { s.pump with redial := none } } (.redialed ⟨s.relayConns⟩))
  /-- Reoccupying the pool key is the whole reconnection. -/
  | redialTaken {s : Sys} {conn : RelayConn} :
      s.pump.pc = .redialed conn → s.st.closed = false →
      PumpStep s { s with
        st := wakeWaiters { s.st with relayPool := s.st.relayPool.insert homeRelay conn }
        pump := { s.pump with
          pc := .top
          relayRecvs := s.pump.relayRecvs ++ [(homeRelay, conn)]
          backoff := ⟨0, some s.now⟩ } }
  | redialDropped {s : Sys} {conn : RelayConn} :
      s.pump.pc = .redialed conn → s.st.closed = true →
      PumpStep s (Sys.goto { s with st := s.st.closeRelay conn } .top)
  | redialFailed {s : Sys} {redial : Redial} {random : Option (UInt8 × UInt8)} :
      s.pump.pc.inSelect = true → s.running = none → s.pump.redial = some redial →
      PumpStep s ((Sys.failRedial { s with pump := { s.pump with redial := none } } random).goto
        .top)
  | kicked {s : Sys} :
      s.pump.pc.inSelect = true → s.running = none → s.st.pumpKicked = true →
      PumpStep s (Sys.goto { s with st := { s.st with pumpKicked := false } } .top)
  /-- The tick: noq's timers, which act inside noq, and the liveness sweep. -/
  | tick {s : Sys} {verdict : RelayConn → ProbeStep} {random : Option (UInt8 × UInt8)} :
      s.pump.pc.inSelect = true → s.running = none →
      PumpStep s ((Sys.sweep { s with pump := { s.pump with forceWake := true } }
        verdict random).goto .top)
  /-- The teardown: wake the waiters and close every pooled relay, -/
  | closeRelays {s : Sys} :
      s.pump.pc = .leaving →
      PumpStep s (Sys.goto { s with
        st := s.st.relayPool.values.foldl closeRelay s.st.wakeWaiters } .selfWake)
  /-- then every channel, -/
  | closeWires {s : Sys} :
      s.pump.pc = .selfWake → s.running = none →
      PumpStep s (Sys.goto { s with
        st := (s.st.channels.values.map ChannelEntry.wire).foldl closeWire s.st } .settling)
  /-- and let the pending receives resolve. -/
  | settled {s : Sys} :
      s.pump.pc = .settling → s.running = none →
      PumpStep s (Sys.goto { s with
        pump := { s.pump with relayRecvs := [], channelRecvs := [] } } .done)

end IrohEndpoint
