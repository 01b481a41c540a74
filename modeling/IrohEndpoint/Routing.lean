import IrohEndpoint.Calls

/-!
# Standins and routes

noq sees every peer under one synthetic address, its *standin*, and the wire
behind a standin changes under it: a relay, or a channel while one is open.

`Routing` is that part of the shared state, and `Routing.machine` says what may
happen to it: a peer gets a standin, a standin's route moves to a relay or to a
channel of its peer, a channel is opened or retired. Every step of the endpoint
is a run of this machine (`routing_simulation`), whose invariant is
`Routing.Inv`. What the connections transmit to a standin then goes to the
standin's peer (`drain_ensures`), and so does what is answered to a datagram that
a relay or a channel brings (`enters_answers`).
-/

namespace IrohEndpoint

open Transition

/-! ## The machine -/

/-- The standins, their routes, and the channels. -/
structure Routing where
  peerToAddr : Table EndpointId SocketAddr
  addrToPeer : Table SocketAddr EndpointId
  nextHost : ℕ
  routes : Table SocketAddr RouteWire
  channels : Table ChannelId ChannelEntry
  nextChannelId : ℕ

/-- The standins, the routes and the channels of a state. -/
def State.routing (s : State) : Routing where
  peerToAddr := s.peerToAddr
  addrToPeer := s.addrToPeer
  nextHost := s.nextHost
  routes := s.routes
  channels := s.channels
  nextChannelId := s.nextChannelId

namespace Routing

/-- What may happen to the standins, the routes and the channels. -/
inductive Step : Routing → Routing → Prop
  /-- A peer gets a standin, routed to a relay. -/
  | assign {r : Routing} {peer : EndpointId} {key : RelayKey} :
      r.peerToAddr.lookup peer = none → r.nextHost + 1 < 2 ^ 32 →
      Step r { r with
        nextHost := r.nextHost + 1
        peerToAddr := r.peerToAddr.insert peer (docPrefixAddr 0x77 (r.nextHost + 1))
        addrToPeer := r.addrToPeer.insert (docPrefixAddr 0x77 (r.nextHost + 1)) peer
        routes := r.routes.insert (docPrefixAddr 0x77 (r.nextHost + 1)) (.relay key) }
  /-- A route moves to a relay. -/
  | reroute {r : Routing} {addr : SocketAddr} {wire : RouteWire} {key : RelayKey} :
      r.routes.lookup addr = some wire →
      Step r { r with routes := r.routes.insert addr (.relay key) }
  /-- A channel is opened. -/
  | open {r : Routing} {entry : ChannelEntry} :
      r.nextChannelId + 1 < 2 ^ 32 →
      Step r { r with
        nextChannelId := r.nextChannelId + 1
        channels := r.channels.insert (r.nextChannelId + 1) entry }
  /-- A route moves to a channel of its peer. -/
  | upgrade {r : Routing} {addr : SocketAddr} {id : ChannelId} {entry : ChannelEntry} :
      r.channels.lookup id = some entry → r.peerToAddr.lookup entry.peer = some addr →
      Step r { r with routes := r.routes.insert addr (.channel id) }
  /-- A channel that no route leads to is retired. -/
  | retire {r : Routing} {id : ChannelId} :
      (∀ addr, r.routes.lookup addr ≠ some (.channel id)) →
      Step r { r with channels := r.channels.erase id }

/-- The machine starts with no standin and no channel. -/
def machine : System Routing where
  init := {⟨∅, ∅, 0, ∅, ∅, 0⟩}
  step := Step

/-- The invariant of the standins, the routes and the channels. -/
structure Inv (r : Routing) : Prop where
  /-- A peer has one standin, and a standin one peer. -/
  inverse : Table.Inverse r.peerToAddr r.addrToPeer
  /-- The routes are those of the standins. -/
  routed : ∀ addr, addr ∈ r.routes ↔ addr ∈ r.addrToPeer
  /-- The standins are the addresses numbered so far. -/
  numbered : ∀ addr peer, r.addrToPeer.lookup addr = some peer →
    ∃ n ≤ r.nextHost, addr = docPrefixAddr 0x77 n
  bounded : r.nextHost < 2 ^ 32
  /-- A route to a channel leads to a channel of the standin's peer. -/
  channel : ∀ addr id, r.routes.lookup addr = some (.channel id) →
    ∃ entry, r.channels.lookup id = some entry ∧ r.addrToPeer.lookup addr = some entry.peer
  /-- The channels are those numbered so far. -/
  opened : ∀ id entry, r.channels.lookup id = some entry → id ≤ r.nextChannelId

end Routing

/-- Addresses with different numbers are different. -/
theorem docPrefixAddr_injective {space : UInt16} {m n : ℕ} (hm : m < 2 ^ 32) (hn : n < 2 ^ 32)
    (h : docPrefixAddr space m = docPrefixAddr space n) : m = n := by
  simp only [docPrefixAddr, SocketAddr.v6.injEq, Vector.mk.injEq, Array.mk.injEq, List.cons.injEq,
    and_true, true_and] at h
  have hhi := congrArg UInt16.toNat h.1
  have hlo := congrArg UInt16.toNat h.2
  simp only [UInt16.toNat_ofNat', Nat.shiftRight_eq_div_pow] at hhi hlo
  omega

namespace Routing

/-- A new standin is not a standin yet. -/
theorem Inv.fresh {r : Routing} (h : r.Inv) (hn : r.nextHost + 1 < 2 ^ 32) :
    r.addrToPeer.lookup (docPrefixAddr 0x77 (r.nextHost + 1)) = none := by
  rw [Option.eq_none_iff_forall_ne_some]
  intro peer hp
  obtain ⟨n, hle, hn'⟩ := h.numbered _ _ hp
  have := docPrefixAddr_injective hn (by omega) hn'
  omega

/-- The invariant, in the initial state. -/
theorem Inv.init {r : Routing} (h : r ∈ machine.init) : r.Inv := by
  cases h
  exact
    { inverse := fun _ _ => ⟨nofun, nofun⟩
      routed := fun _ => Iff.rfl
      numbered := nofun
      bounded := by decide
      channel := nofun
      opened := nofun }

/-- Every step keeps the invariant. -/
theorem Inv.step {r r' : Routing} (h : r.Inv) (hst : Step r r') : r'.Inv := by
  cases hst with
  | @assign peer key hp hn =>
    -- The standin is new, and routed to a relay.
    have hfresh := h.fresh hn
    refine ⟨h.inverse.insert hp hfresh, fun addr => ?_, fun addr peer' ha => ?_, hn,
      fun addr id hr => ?_, h.opened⟩
    · rw [AList.mem_insert, AList.mem_insert, h.routed]
    · rw [Table.lookup_insert_eq] at ha
      split at ha
      · exact ⟨_, le_refl _, by assumption⟩
      · obtain ⟨n, hle, hn'⟩ := h.numbered _ _ ha
        exact ⟨n, Nat.le_succ_of_le hle, hn'⟩
    · dsimp only at hr ⊢
      rw [Table.lookup_insert_eq] at hr ⊢
      split at hr
      · cases hr
      · rename_i hne
        rw [if_neg hne]
        exact h.channel addr id hr
  | @reroute addr wire key hw =>
    refine { h with routed := fun a => ?_, channel := fun a id hr => ?_ }
    · -- Only an address that has a route is rerouted.
      rw [AList.mem_insert, ← h.routed, or_iff_right_iff_imp]
      rintro rfl
      rw [← AList.lookup_isSome, hw]
      rfl
    · dsimp only at hr
      rw [Table.lookup_insert_eq] at hr
      split at hr
      · cases hr
      · exact h.channel a id hr
  | @«open» entry _ =>
    refine { h with channel := fun a id hr => ?_, opened := fun id e hc => ?_ }
    · obtain ⟨e, he, hp⟩ := h.channel a id hr
      have hle := h.opened id e he
      refine ⟨e, ?_, hp⟩
      dsimp only
      rw [Table.lookup_insert_eq, if_neg (Nat.ne_of_lt (Nat.lt_succ_of_le hle))]
      exact he
    · dsimp only at hc ⊢
      rw [Table.lookup_insert_eq] at hc
      split at hc
      · exact Nat.le_of_eq (by assumption)
      · exact Nat.le_succ_of_le (h.opened id e hc)
  | @upgrade addr id entry hc hp =>
    refine { h with routed := fun a => ?_, channel := fun a id' hr => ?_ }
    · -- A standin has a route already.
      rw [AList.mem_insert, ← h.routed, or_iff_right_iff_imp]
      rintro rfl
      rw [h.routed, ← AList.lookup_isSome, (h.inverse _ _).1 hp]
      rfl
    · dsimp only at hr
      rw [Table.lookup_insert_eq] at hr
      split at hr
      · rename_i ha
        cases hr
        exact ⟨entry, hc, (h.inverse _ _).1 (ha ▸ hp)⟩
      · exact h.channel a id' hr
  | @retire id hn =>
    refine { h with channel := fun a id' hr => ?_, opened := fun id' e hc => ?_ }
    · obtain ⟨e, he, hp⟩ := h.channel a id' hr
      refine ⟨e, ?_, hp⟩
      dsimp only
      rw [Table.lookup_erase_eq, if_neg]
      · exact he
      · -- A channel that a route leads to is not retired.
        rintro rfl
        exact hn a hr
    · dsimp only at hc
      rw [Table.lookup_erase_eq] at hc
      split at hc
      · cases hc
      · exact h.opened id' e hc

/-- The invariant holds in every reachable state of the machine. -/
theorem Inv.reachable {r : Routing} (h : machine.Reachable r) : r.Inv :=
  h.invariant (fun _ => Inv.init) fun _ _ _ hst hi => hi.step hst

/-- A step keeps every standin. -/
theorem Step.stable {r r' : Routing} (hst : Step r r') {peer : EndpointId} {addr : SocketAddr}
    (h : r.peerToAddr.lookup peer = some addr) : r'.peerToAddr.lookup peer = some addr := by
  cases hst with
  | assign hp _ =>
    dsimp only
    rw [Table.lookup_insert_eq, if_neg]
    · exact h
    · rintro rfl
      rw [hp] at h
      cases h
  | _ => exact h

end Routing

/-! ## The endpoint refines the machine -/

open Routing

namespace State

variable {s s' : State}

/-- Finding the standin of a peer may assign it. -/
theorem addrForPeer_leads {peer : EndpointId} {via : RelayKey} {addr : SocketAddr}
    (h : s.addrForPeer peer via = .ok (s', addr)) : machine.Leads s.routing s'.routing := by
  rcases addrForPeer_cases h with ⟨rfl, -⟩ | ⟨hp, hn, rfl, rfl⟩
  · exact .refl
  · exact .single (.assign hp hn)

/-- The address of a peer is its standin. -/
theorem addrForPeer_lookup {peer : EndpointId} {via : RelayKey} {addr : SocketAddr}
    (h : s.addrForPeer peer via = .ok (s', addr)) : s'.peerToAddr.lookup peer = some addr := by
  rcases addrForPeer_cases h with ⟨rfl, hp⟩ | ⟨-, -, -, rfl⟩
  · exact hp
  · exact AList.lookup_insert _

/-- A dial may assign a standin, and route it. -/
theorem dialAddr_leads {peer : EndpointId} {direct : Option SocketAddr} {key : RelayKey}
    {addr : SocketAddr} (h : s.dialAddr peer direct key = .ok (s', addr)) :
    machine.Leads s.routing s'.routing := by
  rcases dialAddr_cases h with rfl | ⟨s₁, h₁, rfl | ⟨_, hr, rfl⟩⟩
  · exact .refl
  · exact addrForPeer_leads h₁
  · exact (addrForPeer_leads h₁).tail (.reroute hr)

/-- A channel is opened, its peer may get a standin, and is routed to it. -/
theorem registerChannel_leads {peer : EndpointId} {wire : ChannelWire}
    {result : Except Error Unit} (h : s.registerChannel peer wire = .ok (s', result)) :
    machine.Leads s.routing s'.routing := by
  rcases registerChannel_cases h with ⟨-, rfl⟩ | ⟨-, hn, s₁, addr, h₁, rfl⟩
  · exact .refl
  · -- The channel is there when its peer gets a standin, and when the route moves to it.
    have hentry : s₁.channels.lookup (s.nextChannelId + 1) =
        some ⟨wire, peer, (s.signalingRelay peer).getD homeRelay⟩ := by
      rw [addrForPeer_frame h₁]
      exact AList.lookup_insert _
    have hroute : Routing.Step s₁.routing _ := .upgrade hentry (addrForPeer_lookup h₁)
    exact .head (.open hn) ((addrForPeer_leads h₁).tail hroute)

/-- A channel that dies gives its peer's route back, and is retired. -/
theorem retireChannel_leads (hi : s.routing.Inv) (id : ChannelId) :
    machine.Leads s.routing (s.retireChannel id).routing := by
  rw [retireChannel]
  split
  · exact .refl
  · rename_i entry hc
    -- Only the standin of the channel's peer may be routed to the channel.
    have hroute : ∀ addr, s.routes.lookup addr = some (.channel id) →
        s.peerToAddr.lookup entry.peer = some addr := by
      intro addr hr
      obtain ⟨e, he, hp⟩ := hi.channel addr id hr
      obtain rfl : entry = e := Option.some.inj (hc.symm.trans he)
      exact (hi.inverse _ _).2 hp
    dsimp only
    split
    · rename_i hp
      refine .single (.retire fun addr hr => ?_)
      rw [hroute addr hr] at hp
      cases hp
    · rename_i standin hp
      split
      · rename_i hr
        refine .tail (.single (.reroute hr)) (.retire fun addr hr' => ?_)
        dsimp only at hr'
        rw [Table.lookup_insert_eq] at hr'
        split at hr' <;> rename_i hne
        · cases hr'
        · exact hne (Option.some.inj ((hroute addr hr').symm.trans hp))
      · rename_i hr
        refine .single (.retire fun addr hr' => hr ?_)
        obtain rfl : addr = standin := Option.some.inj ((hroute addr hr').symm.trans hp)
        exact hr'

/-- A datagram fed to noq changes no standin, route or channel. -/
theorem handleDatagram_routing {addr : SocketAddr} {source : Option EndpointId} {origin : Origin}
    {event : DatagramEvent} (h : s.handleDatagram addr source origin event = .ok s') :
    s'.routing = s.routing := by
  rw [handleDatagram_frame h]
  rfl

end State

/-- A failing relay changes no standin, route or channel. -/
theorem Sys.FailsRelays.routing {s s' : Sys} (h : Sys.FailsRelays s s') :
    s'.st.routing = s.st.routing := by
  rw [FailsRelays] at h
  rw [h]
  rfl

open State

/-- In the step from `s` to `s'`, a receive on the relay `key` resolves with a datagram
    of `source`, for noq. -/
def Sys.Delivers (s s' : Sys) (key : RelayKey) (source : EndpointId) : Prop :=
  ∃ conn event st, (key, conn) ∈ s.pump.relayRecvs ∧
    s.st.handleRelayDatagram key source event = .ok st ∧
    s' = Sys.goto { s.takeRelayRecv key conn with st := st } .top

/-- The state in which a session registers its channel: the offerer has freed its slot. -/
def SignalingSession.registers (session : SignalingSession) (st : State) : State :=
  match session.role with
  | .offerer => st.endSignaling session.peer
  | .answerer => st

namespace SignalingSession

variable {session : SignalingSession} (st : State)

theorem registers_offerer (h : session.role = .offerer) :
    session.registers st = st.endSignaling session.peer := by
  rw [registers, h]

theorem registers_answerer (h : session.role = .answerer) : session.registers st = st := by
  rw [registers, h]

/-- The standins, the routes and the channels are the same. -/
theorem registers_routing : (session.registers st).routing = st.routing := by
  rw [registers]
  split <;> rfl

theorem registers_routes : (session.registers st).routes = st.routes :=
  congrArg Routing.routes (registers_routing st)

theorem registers_channels : (session.registers st).channels = st.channels :=
  congrArg Routing.channels (registers_routing st)

end SignalingSession

/-- What a step does to the standins, the routes and the channels. -/
inductive Sys.Reroutes (s s' : Sys) : Prop
  | same : s'.st.routing = s.st.routing → Reroutes s s'
  /-- A peer is heard through a relay, or a channel. -/
  | datagram {key : RelayKey} {source : EndpointId} {st : State} {addr : SocketAddr} :
      s.Delivers s' key source → s.st.addrForPeer source key = .ok (st, addr) →
      s'.st.routing = st.routing → Reroutes s s'
  | channelDatagram {id : ChannelId} {entry : ChannelEntry} {st : State} {addr : SocketAddr} :
      s.st.channels.lookup id = some entry →
      s.st.addrForPeer entry.peer entry.fallbackRelay = .ok (st, addr) →
      s'.st.routing = st.routing → Reroutes s s'
  /-- A call dials. -/
  | dial {tid : TaskId} {task : ConnectTask} {dialKey : RelayKey} {upgradeKey : Option RelayKey}
      {st : State} {remote : SocketAddr} :
      s.connects.lookup tid = some task → task.phase = .dialing dialKey upgradeKey →
      s.st.dialAddr task.peer task.plan.direct dialKey = .ok (st, remote) →
      s'.st.routing = st.routing → Reroutes s s'
  /-- A session registers its channel. -/
  | register {tid : TaskId} {session : SignalingSession} {wire : ChannelWire} {st : State}
      {result : Except Error Unit} :
      s.sessions.lookup tid = some session → session.live = true →
      (session.registers s.st).registerChannel session.peer wire = .ok (st, result) →
      s'.st.routing = st.routing → Reroutes s s'
  /-- A channel is retired. -/
  | retire {id : ChannelId} : s'.st = s.st.retireChannel id → Reroutes s s'

/-- What a step of the pump does. -/
theorem PumpStep.reroutes {s s' : Sys} (h : PumpStep s s') : s.Reroutes s' := by
  cases h with
  | drain _ hd =>
    rw [(drain_polls hd).woken]
    exact .same rfl
  | relaySendFailed =>
    split
    · exact .same (s.failHome_fails _ _).routing
    · exact .same rfl
  | arm =>
    rw [Sys.foldl_spawnUpgrade_frame]
    exact .same rfl
  | relaySignal =>
    rw [Sys.handleSignal_frame]
    exact .same rfl
  | relayDatagram _ _ hmem _ hd =>
    obtain ⟨s₁, addr, h₁, h₂⟩ := handleRelayDatagram_eq hd
    exact .datagram ⟨_, _, _, hmem, hd, rfl⟩ h₁ (handleDatagram_routing h₂)
  | relayFailed => exact .same (Sys.failReceive_fails _ _ _ _).routing
  | udpReceived _ _ _ hd => exact .same (handleDatagram_routing hd)
  | channelDatagram _ _ _ hd =>
    rcases handleChannelDatagram_cases hd with ⟨-, rfl⟩ | ⟨entry, s₁, addr, hc, h₁, h₂⟩
    · exact .same rfl
    · exact .channelDatagram hc h₁ (handleDatagram_routing h₂)
  | channelFailed => exact .retire rfl
  | redialFailed =>
    rw [Sys.failRedial]
    split <;> exact .same rfl
  | tick => exact .same (Sys.sweep_fails _ _ _).routing
  | closeRelays =>
    rw [foldl_closeRelay]
    exact .same rfl
  | closeWires =>
    rw [foldl_closeWire]
    exact .same rfl
  | _ => exact .same rfl

/-- What a step of a `connect` call does. -/
theorem ConnectStep.reroutes {s s' : Sys} (h : ConnectStep s s') : s.Reroutes s' := by
  cases h with
  | found _ _ _ _ he | closed _ _ _ _ he | claimed _ _ _ _ he | shared _ _ _ _ he =>
    rw [ensureRelay_frame he]
    exact .same rfl
  | opened _ _ _ _ hr =>
    obtain ⟨-, -, rfl⟩ := registerRelay_eq hr
    exact .same rfl
  | dialFailed _ hl hp _ ha => exact .dial hl hp ha rfl
  | dialed _ hl hp _ ha hd =>
    obtain ⟨s₁, _, h₁, rfl⟩ := dialed_eq hd
    obtain ⟨-, -, -, rfl⟩ := insertConn_eq h₁
    exact .dial hl hp ha rfl
  | failed | cancelParked =>
    rcases s.st.closeConnection_cases _ _ _ _ with ⟨h, -⟩ | ⟨_, -, -, -, h⟩ <;>
      rw [dropDialGuard, h] <;> exact .same rfl
  | _ => exact .same rfl

/-- What a step of a signaling session does. -/
theorem SessionStep.reroutes {s s' : Sys} (h : SessionStep s s') : s.Reroutes s' := by
  cases h with
  | begin _ _ _ hb =>
    obtain ⟨-, rfl⟩ := beginSignaling_eq hb
    exact .same rfl
  | receive =>
    rw [nextSignalCheck_frame]
    exact .same rfl
  | upgraded _ hs hl hrole hr =>
    rw [← SignalingSession.registers_offerer s.st hrole] at hr
    exact .register hs hl hr rfl
  | answered _ hs hl hrole hr =>
    rw [← SignalingSession.registers_answerer s.st hrole] at hr
    exact .register hs hl hr rfl
  | _ => exact .same rfl

/-- What a step does to the standins, the routes and the channels. -/
theorem Step.reroutes {s s' : Sys} (h : Step s s') : s.Reroutes s' := by
  rcases h.cases with h | h | h | h
  · exact h.reroutes
  · exact h.reroutes
  · exact h.reroutes
  · rw [h.frame]
    exact .same rfl

/-- A step of the endpoint is a run of the machine. -/
theorem Step.routing {s s' : Sys} (hi : s.st.routing.Inv) (h : Step s s') :
    machine.Leads s.st.routing s'.st.routing := by
  rcases h.reroutes with h | ⟨-, h₁, h⟩ | ⟨-, h₁, h⟩ | ⟨-, -, ha, h⟩ | ⟨-, -, hr, h⟩ | h
  · exact .of_eq h
  · exact h ▸ addrForPeer_leads h₁
  · exact h ▸ addrForPeer_leads h₁
  · exact h ▸ dialAddr_leads ha
  · have hst := registerChannel_leads hr
    rw [SignalingSession.registers_routing] at hst
    exact h ▸ hst
  · exact h ▸ retireChannel_leads hi _

/-- The standins, the routes and the channels of the endpoint follow the
    machine. -/
theorem routing_simulation : Simulation endpoint machine fun s => s.st.routing where
  init := by
    rintro _ ⟨config, webrtc, now, st, key, hr, rfl⟩
    obtain ⟨-, -, rfl⟩ := registerRelay_eq hr
    rfl
  step := fun _ _ _ hr hst => Step.routing (Inv.reachable hr) hst

/-! ## Where datagrams go -/

/-- A datagram queued for a wire. -/
inductive Outbound
  | relay (key : RelayKey) (peer : EndpointId) (payload : Bytes)
  | channel (id : ChannelId) (payload : Bytes)
  | udp (remote : SocketAddr) (payload : Bytes)

namespace Outbound

/-- The bytes of a queued datagram. -/
def payload : Outbound → Bytes
  | relay _ _ payload | channel _ payload | udp _ payload => payload

/-- An item of the relay queue. -/
def relay? : Outbound → Option (RelayKey × EndpointId × Bytes)
  | relay key peer payload => some (key, peer, payload)
  | _ => none

/-- An item of the channel queue. -/
def channel? : Outbound → Option (ChannelId × Bytes)
  | channel id payload => some (id, payload)
  | _ => none

/-- An item of the UDP queue. -/
def udp? : Outbound → Option (SocketAddr × Bytes)
  | udp remote payload => some (remote, payload)
  | _ => none

end Outbound

/-- The peer that a datagram is addressed to: the one the relay is told, or the
    one at the other end of the channel. -/
def Routing.addressee (r : Routing) : Outbound → Option EndpointId
  | .relay _ peer _ => some peer
  | .channel id _ => (r.channels.lookup id).map ChannelEntry.peer
  | .udp _ _ => none

/-- A datagram queued for `addr` is addressed to the peer whose standin it is. If
    it is no standin, the datagram goes to the UDP socket. -/
def Routing.Delivers (r : Routing) (addr : SocketAddr) (d : Outbound) : Prop :=
  match r.addrToPeer.lookup addr with
  | some peer => r.addressee d = some peer
  | none => d = .udp addr d.payload

/-- A datagram addressed to the peer behind a standin is delivered there. -/
theorem Routing.delivers_of_addressee {r : Routing} {addr : SocketAddr} {peer : EndpointId}
    {d : Outbound} (hp : r.addrToPeer.lookup addr = some peer) (hd : r.addressee d = some peer) :
    r.Delivers addr d := by
  rw [Delivers, hp]
  exact hd

namespace State

/-- Between `s` and `s'`, the datagrams `queued` were queued, in this order. -/
structure Queues (s s' : State) (queued : List Outbound) : Prop where
  relay : s'.relayOutbound = s.relayOutbound ++ queued.filterMap Outbound.relay?
  channel : s'.channelOutbound = s.channelOutbound ++ queued.filterMap Outbound.channel?
  udp : s'.udpOutbound = s.udpOutbound ++ queued.filterMap Outbound.udp?

/-- Nothing was queued. -/
theorem Queues.of_eq {s s' : State} (hr : s'.relayOutbound = s.relayOutbound)
    (hc : s'.channelOutbound = s.channelOutbound) (hu : s'.udpOutbound = s.udpOutbound) :
    s.Queues s' [] :=
  ⟨by simp [hr], by simp [hc], by simp [hu]⟩

/-- More was queued. -/
theorem Queues.trans {s₁ s₂ s₃ : State} {q₁ q₂ : List Outbound} (h₁ : s₁.Queues s₂ q₁)
    (h₂ : s₂.Queues s₃ q₂) : s₁.Queues s₃ (q₁ ++ q₂) := by
  refine ⟨?_, ?_, ?_⟩
  · rw [h₂.relay, h₁.relay, List.filterMap_append, List.append_assoc]
  · rw [h₂.channel, h₁.channel, List.filterMap_append, List.append_assoc]
  · rw [h₂.udp, h₁.udp, List.filterMap_append, List.append_assoc]

/-- Between `s` and `s'`, one datagram was queued for each of `transmits`, with
    its bytes, addressed to the peer behind its destination. -/
def Sends (s s' : State) (transmits : List (SocketAddr × Bytes)) : Prop :=
  s'.routing = s.routing ∧ ∃ queued, s.Queues s' queued ∧
    List.Forall₂ (fun t d => d.payload = t.2 ∧ s.routing.Delivers t.1 d) transmits queued

/-- The transmits of the turns of polling a connection. -/
def roundTransmits (rs : List Round) : List (SocketAddr × Bytes) :=
  (rs.takeWhile Round.progressed).flatMap Round.transmits

/-- The transmits that draining every connection polls. -/
def polledTransmits (s : State) (polling : ConnectionHandle → Polling) :
    List (SocketAddr × Bytes) :=
  s.conns.keys.flatMap fun handle => roundTransmits (polling handle).rounds

variable {s s' : State}

/-- Nothing was queued. -/
theorem Sends.nil (h : s'.routing = s.routing) (hr : s'.relayOutbound = s.relayOutbound)
    (hc : s'.channelOutbound = s.channelOutbound) (hu : s'.udpOutbound = s.udpOutbound) :
    s.Sends s' [] :=
  ⟨h, [], .of_eq hr hc hu, .nil⟩

/-- More was queued. -/
theorem Sends.trans {s₁ s₂ s₃ : State} {t₁ t₂ : List (SocketAddr × Bytes)}
    (h₁ : s₁.Sends s₂ t₁) (h₂ : s₂.Sends s₃ t₂) : s₁.Sends s₃ (t₁ ++ t₂) := by
  obtain ⟨hr₁, q₁, hq₁, hd₁⟩ := h₁
  obtain ⟨hr₂, q₂, hq₂, hd₂⟩ := h₂
  rw [hr₁] at hd₂
  exact ⟨hr₂.trans hr₁, q₁ ++ q₂, hq₁.trans hq₂, List.rel_append hd₁ hd₂⟩

/-- A transmit finds the peer of its destination, and is queued for it. -/
theorem routeTransmit_ensures (hi : s.routing.Inv) (t : SocketAddr × Bytes) :
    (s.routeTransmit t).Ensures .missingKey fun s' => s.Sends s' [t] := by
  have hrouted := hi.routed t.1
  rw [← AList.lookup_isSome, ← AList.lookup_isSome] at hrouted
  have hsend : ∀ {s' : State} (d : Outbound), s'.routing = s.routing → s.Queues s' [d] →
      d.payload = t.2 → s.routing.Delivers t.1 d → s.Sends s' [t] :=
    fun d hr hq hp hd => ⟨hr, [d], hq, .cons ⟨hp, hd⟩ .nil⟩
  rw [routeTransmit]
  split <;> rename_i hr
  · rename_i key
    -- A destination with a route is a standin, and has a peer.
    obtain ⟨peer, hp⟩ : ∃ peer, s.addrToPeer.lookup t.1 = some peer := by
      rw [← Option.isSome_iff_exists]
      exact hrouted.1 (by rw [show s.routing.routes = s.routes from rfl, hr]; rfl)
    rw [hp]
    exact .ok (hsend (.relay key peer t.2) rfl ⟨rfl, by simp [Outbound.channel?],
      by simp [Outbound.udp?]⟩ rfl (delivers_of_addressee hp rfl))
  · rename_i id
    obtain ⟨entry, hc, hp⟩ := hi.channel t.1 id hr
    exact .ok (hsend (.channel id t.2) rfl ⟨by simp [Outbound.relay?], rfl,
      by simp [Outbound.udp?]⟩ rfl
      (delivers_of_addressee hp (congrArg (Option.map ChannelEntry.peer) hc)))
  · have hp : s.routing.addrToPeer.lookup t.1 = none := by
      rw [← Option.not_isSome_iff_eq_none, ← hrouted]
      rw [show s.routing.routes = s.routes from rfl, hr]
      simp
    refine .ok (hsend (.udp t.1 t.2) rfl ⟨by simp [Outbound.relay?], by simp [Outbound.channel?],
      rfl⟩ rfl ?_)
    rw [Routing.Delivers, hp]
    rfl

/-- An event queues no datagram. -/
theorem pollEvent_ensures (handle : ConnectionHandle) (event : Event) :
    (pollEvent handle s event).Ensures .missingKey fun s' => s.Sends s' [] := by
  rw [pollEvent]
  split
  · exact .ok (.nil rfl rfl rfl rfl)
  · split
    · exact .error (by simp)
    · exact .ok (.nil rfl rfl rfl rfl)

/-- A turn of polling queues its transmits. -/
theorem drainRound_ensures (hi : s.routing.Inv) (handle : ConnectionHandle) (r : Round) :
    (drainRound handle s r).Ensures .missingKey fun s' => s.Sends s' r.transmits := by
  refine .bind (P := fun s₁ => s.Sends s₁ []) ?_ fun s₁ h₁ => ?_
  · refine Except.Ensures.foldlM (I := fun _ s₁ => s.Sends s₁ []) (fun _ event s₁ h₁ => ?_)
      (.nil rfl rfl rfl rfl) _
    exact (pollEvent_ensures handle event).mono fun s₂ h₂ => h₁.trans h₂
  · refine (Except.Ensures.foldlM (I := fun done s₂ => s₁.Sends s₂ done)
      (fun done t s₂ h₂ => ?_) (.nil rfl rfl rfl rfl) _).mono fun s₂ h₂ => h₁.trans h₂
    have hi₂ : s₂.routing.Inv := by rwa [h₂.1, h₁.1]
    exact (routeTransmit_ensures hi₂ t).mono fun s₃ h₃ => h₂.trans h₃

/-- The turns of polling a connection queue their transmits. -/
theorem drainRounds_ensures (hi : s.routing.Inv) (handle : ConnectionHandle) (rs : List Round) :
    (drainRounds handle rs s).Ensures .missingKey fun a => s.Sends a.1 (roundTransmits rs) := by
  induction rs generalizing s with
  | nil => exact .ok (.nil rfl rfl rfl rfl)
  | cons r rs ih =>
    rw [drainRounds, roundTransmits, List.takeWhile_cons]
    split
    · refine (drainRound_ensures hi handle r).bind fun s₁ h₁ => ?_
      have hi₁ : s₁.routing.Inv := by rwa [h₁.1]
      exact (ih hi₁).bind fun a h₂ => .ok (h₁.trans h₂)
    · exact .ok (.nil rfl rfl rfl rfl)

/-- Marking a drained connection queues no datagram. -/
theorem markDrained_sends (s : State) (handle : ConnectionHandle) (isDrained : Bool) :
    s.Sends (s.markDrained handle isDrained).1 [] := by
  rw [markDrained]
  split
  · exact .nil rfl rfl rfl rfl
  · split <;> exact .nil rfl rfl rfl rfl

/-- `drain` finds the peer of every standin it transmits to, and queues every
    transmit for the peer behind its destination. -/
theorem drain_ensures (hi : s.routing.Inv) (polling : ConnectionHandle → Polling) :
    (s.drain polling).Ensures .missingKey fun a => s.Sends a.1 (s.polledTransmits polling) := by
  refine Except.Ensures.foldlM (I := fun done (a : State × Bool) => s.Sends a.1
    (done.flatMap fun handle => roundTransmits (polling handle).rounds))
    (fun done handle a h => ?_) (.nil rfl rfl rfl rfl) _
  have hi' : a.1.routing.Inv := by rwa [h.1]
  refine (drainRounds_ensures hi' handle _).bind fun a₁ h₁ => .ok ?_
  have hmark := (h.trans h₁).trans (markDrained_sends a₁.1 handle (polling handle).isDrained)
  rw [List.append_nil] at hmark
  rw [List.flatMap_append, List.flatMap_singleton]
  exact hmark

/-! ## Responses -/

/-- A response goes over the route of a standin, and to a real address over the UDP socket. -/
def responds (s : State) (addr : SocketAddr) (source : Option EndpointId) (packet : Bytes) :
    Outbound :=
  match s.routes.lookup addr, source with
  | some (.relay key), some peer => .relay key peer packet
  | some (.channel id), _ => .channel id packet
  | _, _ => .udp addr packet

/-- What is answered at once to a datagram from `addr`: the packet that noq responds with, or the
    refusal of a new connection. -/
def responses (s : State) (addr : SocketAddr) (source : Option EndpointId) :
    DatagramEvent → List Outbound
  | .connectionEvent _ | .ignored => []
  | .response packet => [s.responds addr source packet]
  | .newConnection refusal accepted =>
    if s.closed then []
    else if s.acceptBacklog ≥ acceptBacklogBound then [s.responds addr source refusal]
    else match accepted with
      | .ok _ | .error none => []
      | .error (some packet) => [s.responds addr source packet]

/-- A response is queued where it goes. -/
theorem pushResponse_queues (addr : SocketAddr) (source : Option EndpointId) (packet : Bytes) :
    s.Queues (s.pushResponse addr source packet) [s.responds addr source packet] := by
  unfold pushResponse responds
  generalize s.routes.lookup addr = wire
  cases wire with
  | none => exact ⟨by simp [Outbound.relay?], by simp [Outbound.channel?], rfl⟩
  | some wire =>
    cases wire with
    | channel id => exact ⟨by simp [Outbound.relay?], rfl, by simp [Outbound.udp?]⟩
    | relay key =>
      cases source with
      | none => exact ⟨by simp [Outbound.relay?], by simp [Outbound.channel?], rfl⟩
      | some peer => exact ⟨rfl, by simp [Outbound.channel?], by simp [Outbound.udp?]⟩

/-- The responses to a datagram are queued, and nothing else. -/
theorem handleDatagram_queues {addr : SocketAddr} {source : Option EndpointId} {origin : Origin}
    {event : DatagramEvent} (h : s.handleDatagram addr source origin event = .ok s') :
    s.Queues s' (s.responses addr source event) := by
  have hsame : s' = s → s.Queues s' [] := by
    rintro rfl
    exact .of_eq rfl rfl rfl
  cases event with
  | connectionEvent _ | ignored => exact hsame (Except.ok.inj h).symm
  | response packet =>
    cases h
    exact s.pushResponse_queues addr source packet
  | newConnection refusal accepted =>
    simp only [handleDatagram] at h
    simp only [responses]
    split at h <;> rename_i hc
    · rw [if_pos hc]
      exact hsame (Except.ok.inj h).symm
    · rw [if_neg hc]
      split at h <;> rename_i hb
      · rw [if_pos hb]
        cases h
        exact s.pushResponse_queues addr source refusal
      · rw [if_neg hb]
        cases accepted with
        | ok handle =>
          obtain ⟨⟨s₁, epoch⟩, h₁, h⟩ := Except.bind_eq_ok.1 h
          cases h
          obtain ⟨-, -, -, rfl⟩ := insertConn_eq h₁
          exact .of_eq rfl rfl rfl
        | error packet =>
          cases packet with
          | none => exact hsame (Except.ok.inj h).symm
          | some packet =>
            cases h
            exact s.pushResponse_queues addr source packet

/-- What is answered to a datagram are responses. -/
theorem mem_responses {addr : SocketAddr} {source : Option EndpointId} {event : DatagramEvent}
    {d : Outbound} (h : d ∈ s.responses addr source event) :
    ∃ packet, d = s.responds addr source packet := by
  cases event with
  | connectionEvent | ignored => cases h
  | response packet => exact ⟨packet, List.mem_singleton.1 h⟩
  | newConnection refusal accepted =>
    simp only [responses] at h
    split at h
    · cases h
    · split at h
      · exact ⟨refusal, List.mem_singleton.1 h⟩
      · split at h
        · cases h
        · cases h
        · exact ⟨_, List.mem_singleton.1 h⟩

/-- The standin that a peer is assigned is not queued. -/
theorem Queues.enters {s'' : State} {peer : EndpointId} {via : RelayKey} {addr : SocketAddr}
    {queued : List Outbound} (h : s'.Queues s'' queued)
    (ha : s.addrForPeer peer via = .ok (s', addr)) : s.Queues s'' queued := by
  rw [addrForPeer_frame ha] at h
  exact ⟨h.relay, h.channel, h.udp⟩

/-- A standin has a route. -/
theorem routed_of_standin (hi : s.routing.Inv) {addr : SocketAddr} {peer : EndpointId}
    (hp : s.addrToPeer.lookup addr = some peer) : ∃ wire, s.routes.lookup addr = some wire := by
  rw [← Option.isSome_iff_exists, AList.lookup_isSome]
  exact (hi.routed addr).2 (AList.lookup_isSome.1 (Option.isSome_iff_exists.2 ⟨peer, hp⟩))

/-- A channel that a standin is routed to leads to its peer. -/
theorem channel_addressee (hi : s.routing.Inv) {addr : SocketAddr} {id : ChannelId}
    (hw : s.routes.lookup addr = some (.channel id)) (payload : Bytes) :
    s.routing.addressee (.channel id payload) = s.addrToPeer.lookup addr := by
  obtain ⟨entry, hc, he⟩ := hi.channel addr id hw
  exact (congrArg (Option.map ChannelEntry.peer) hc).trans he.symm

/-- A response to a peer, under its standin, is addressed to the peer. -/
theorem responds_addressee (hi : s.routing.Inv) {addr : SocketAddr} {peer : EndpointId}
    (hp : s.addrToPeer.lookup addr = some peer) (packet : Bytes) :
    s.routing.addressee (s.responds addr (some peer) packet) = some peer := by
  obtain ⟨wire, hw⟩ := routed_of_standin hi hp
  cases wire with
  | relay key => simp only [responds, hw, addressee]
  | channel id =>
    simp only [responds, hw]
    exact (channel_addressee hi hw packet).trans hp

/-- The datagrams queued are addressed to `peer`. -/
def Answers (s s' : State) (peer : EndpointId) : Prop :=
  ∃ queued, s.Queues s' queued ∧ ∀ d ∈ queued, s'.routing.addressee d = some peer

/-- What noq answers to a datagram of a peer goes to that peer. -/
theorem handleDatagram_answers (hi : s.routing.Inv) {addr : SocketAddr} {peer : EndpointId}
    (hp : s.peerToAddr.lookup peer = some addr) {origin : Origin} {event : DatagramEvent}
    (h : s.handleDatagram addr (some peer) origin event = .ok s') : s.Answers s' peer := by
  refine ⟨_, handleDatagram_queues h, fun d hd => ?_⟩
  obtain ⟨packet, rfl⟩ := mem_responses hd
  rw [handleDatagram_routing h]
  exact responds_addressee hi ((hi.inverse _ _).1 hp) packet

/-- A datagram of a peer enters noq under the peer's standin, and what noq
    answers goes to that peer. -/
theorem enters_answers (hr : machine.Reachable s.routing) {peer : EndpointId} {via : RelayKey}
    {s₁ : State} {addr : SocketAddr} (h₁ : s.addrForPeer peer via = .ok (s₁, addr))
    {origin : Origin} {event : DatagramEvent}
    (h : s₁.handleDatagram addr (some peer) origin event = .ok s') :
    s'.peerToAddr.lookup peer = some addr ∧ s.Answers s' peer := by
  have hi : s₁.routing.Inv := Inv.reachable (hr.leads (addrForPeer_leads h₁))
  have hp := addrForPeer_lookup h₁
  refine ⟨(congrArg (fun r => r.peerToAddr.lookup peer) (handleDatagram_routing h)).trans hp, ?_⟩
  obtain ⟨queued, hq, hd⟩ := handleDatagram_answers hi hp h
  exact ⟨queued, hq.enters h₁, hd⟩

end State

/-- The standin tables are consistent, and so is what `drain` and the datagrams of
    relays and channels make of them. -/
structure StandinsConsistent (s : Sys) : Prop where
  /-- `peer_to_addr` and `addr_to_peer` are inverse to each other. -/
  inverse : Table.Inverse s.st.peerToAddr s.st.addrToPeer
  /-- The keys of `routes` are those of `addr_to_peer`. -/
  routed : ∀ addr, addr ∈ s.st.routes ↔ addr ∈ s.st.addrToPeer
  /-- A peer's standin never changes. -/
  stable : ∀ s', endpoint.Leads s s' → ∀ peer addr, s.st.peerToAddr.lookup peer = some addr →
    s'.st.peerToAddr.lookup peer = some addr
  /-- A route to a channel leads to an open channel of the standin's peer. -/
  channel : ∀ addr id, s.st.routes.lookup addr = some (.channel id) →
    ∃ entry, s.st.channels.lookup id = some entry ∧ s.st.addrToPeer.lookup addr = some entry.peer
  /-- The lookup of the peer in `drain` does not fail. -/
  found : ∀ polling, s.st.drain polling ≠ .error .missingKey
  /-- `drain` queues every transmit for the peer behind its destination. -/
  drained : ∀ polling st progressed, s.st.drain polling = .ok (st, progressed) →
    s.st.Sends st (s.st.polledTransmits polling)
  /-- A relay datagram enters noq under the standin of its source, and what is
      answered goes to its source. -/
  relay : ∀ via source event st, s.st.handleRelayDatagram via source event = .ok st →
    ∃ (st₁ : State) (addr : SocketAddr), st.peerToAddr.lookup source = some addr ∧
      st₁.handleDatagram addr (some source) (.relay source) event = .ok st ∧ s.st.Answers st source
  /-- A datagram of a channel enters noq under the standin of the channel's peer,
      and what is answered goes to that peer. -/
  channelled : ∀ id entry event st, s.st.channels.lookup id = some entry →
    s.st.handleChannelDatagram id event = .ok st →
    ∃ (st₁ : State) (addr : SocketAddr), st.peerToAddr.lookup entry.peer = some addr ∧
      st₁.handleDatagram addr (some entry.peer) (.channel id entry.peer) event = .ok st ∧
      s.st.Answers st entry.peer

/-- In every reachable state, the standin tables are consistent. -/
theorem standinsConsistent_reachable {s : Sys} (hs : endpoint.Reachable s) :
    StandinsConsistent s := by
  have hr := routing_simulation.reachable hs
  have hi := Inv.reachable hr
  refine ⟨hi.inverse, hi.routed, fun s' hl peer addr => ?_, hi.channel,
    fun polling => (drain_ensures hi polling).1,
    fun polling st progressed => (drain_ensures hi polling).2 (st, progressed),
    fun via source event st h => ?_, fun id entry event st hc h => ?_⟩
  · -- Every step of the machine keeps the standins, and so does a run.
    exact System.Leads.rel (t := machine) (R := fun r r' => r.peerToAddr.lookup peer = some addr →
      r'.peerToAddr.lookup peer = some addr) (fun _ => id) (fun _ _ _ h₁ h₂ => h₂ ∘ h₁)
      (fun _ _ _ hst => hst.stable) hr (routing_simulation.leads hs hl)
  · obtain ⟨st₁, addr, h₁, h₂⟩ := handleRelayDatagram_eq h
    obtain ⟨hp, ha⟩ := enters_answers hr h₁ h₂
    exact ⟨st₁, addr, hp, h₂, ha⟩
  · rcases handleChannelDatagram_cases h with ⟨hn, -⟩ | ⟨entry', st₁, addr, hc', h₁, h₂⟩
    · rw [hc] at hn
      cases hn
    · obtain rfl : entry = entry' := Option.some.inj (hc.symm.trans hc')
      obtain ⟨hp, ha⟩ := enters_answers hr h₁ h₂
      exact ⟨st₁, addr, hp, h₂, ha⟩

end IrohEndpoint
