import IrohEndpoint.Kicks
import IrohEndpoint.Teardown
import IrohEndpoint.Wires

/-!
# What the endpoint sends

noq and the signaling sessions produce datagrams, at any time; the pump takes them from the
queues, one after the other, in its turn. `Traffic` is the record of a run of both: what was
produced, as it was queued (`Produces`), and what has departed, with where it went (`Departs`,
`Sys.exit`).

Nothing is lost, duplicated or reordered in between: for each kind of wire, what was produced is
what has departed, and then what is queued (`Accounts`). And nothing stays behind: the pump left
to itself comes to the end of a turn at which all that was produced has departed
(`traffic_flushed`). A turn may begin too early for that, and the next one makes up for it, unless
the pump may end in that turn: the endpoint is closed, and its connections have ended, or the linger
is over.
-/

namespace IrohEndpoint

open Transition State

/-! ## The record -/

/-- Where a datagram goes when it leaves its queue: to the connection of a relay, to the UDP
    socket, or to the wire of a channel. It is lost if there is none. -/
inductive Exit
  | relay (conn : RelayConn)
  | udp
  | channel (wire : ChannelWire)
  | lost
  deriving DecidableEq

/-- Where the pump sends a datagram. -/
def Sys.exit (s : Sys) : Outbound → Exit
  | .relay key _ _ => ((s.st.relayPool.lookup key).map Exit.relay).getD .lost
  | .channel id _ => ((s.st.channels.lookup id).map fun e => Exit.channel e.wire).getD .lost
  | .udp _ _ => if s.config.udp then .udp else .lost

/-- What was produced in a run, and what has departed. -/
structure Traffic where
  produced : List Outbound
  departed : List (Outbound × Exit)

/-- A step in which something is produced: the transmits of the connections when the pump drains
    them, a response of noq to a datagram, or a signal. -/
inductive Produces (s s' : Sys) : List Outbound → Prop
  | drain {polling : ConnectionHandle → Polling} {st : State} {progressed : Bool}
      {queued : List Outbound} :
      s.pump.pc = .top → s.st.drain polling = .ok (st, progressed) →
      s'.st = (if progressed || s.pump.forceWake then st.wakeWaiters else st) →
      List.Forall₂ (fun t d => s.st.picks t.1 t.2 = some d) (s.st.polledTransmits polling) queued →
      Produces s s' queued
  | relay {key : RelayKey} {conn : RelayConn} {source : EndpointId} {event : DatagramEvent}
      {st : State} {addr : SocketAddr} :
      s.pump.pc.inSelect = true → (key, conn) ∈ s.pump.relayRecvs →
      s.st.addrForPeer source key = .ok (st, addr) →
      st.handleDatagram addr (some source) (.relay source) event = .ok s'.st →
      Produces s s' (st.responses addr (some source) event)
  | channel {id : ChannelId} {wire : ChannelWire} {entry : ChannelEntry} {event : DatagramEvent}
      {st : State} {addr : SocketAddr} :
      s.pump.pc.inSelect = true → (id, wire) ∈ s.pump.channelRecvs →
      s.st.channels.lookup id = some entry →
      s.st.addrForPeer entry.peer entry.fallbackRelay = .ok (st, addr) →
      st.handleDatagram addr (some entry.peer) (.channel id entry.peer) event = .ok s'.st →
      Produces s s' (st.responses addr (some entry.peer) event)
  | udp {remote : SocketAddr} {event : DatagramEvent} :
      s.pump.pc.inSelect = true → s.pump.udpRecv = true →
      s.st.handleUdpDatagram remote event = .ok s'.st →
      Produces s s' (s.st.responses remote none event)
  | signal {tid : TaskId} {session : SignalingSession} {relay : RelayKey} {json : Bytes} :
      s.quiet = true → s.sessions.lookup tid = some session → session.live = true →
      s.st.signalingRelay session.peer = some relay →
      s'.st = s.st.pushSignalOutbound relay session.peer (signalPrefix :: json) →
      Produces s s' [.relay relay session.peer (signalPrefix :: json)]

/-- A step in which the pump takes the first datagram of a queue. -/
inductive Departs (s s' : Sys) : Outbound → Prop
  | relay {key : RelayKey} {peer : EndpointId} {datagram : Bytes}
      {rest : List (RelayKey × EndpointId × Bytes)} :
      s.pump.pc = .flushRelay → s.st.relayOutbound = (key, peer, datagram) :: rest →
      s'.st = { s.st with relayOutbound := rest } → Departs s s' (.relay key peer datagram)
  | udp {remote : SocketAddr} {datagram : Bytes} {rest : List (SocketAddr × Bytes)} :
      s.pump.pc = .flushUdp → s.st.udpOutbound = (remote, datagram) :: rest →
      s'.st = { s.st with udpOutbound := rest } → Departs s s' (.udp remote datagram)
  | channel {id : ChannelId} {datagram : Bytes} {rest : List (ChannelId × Bytes)} :
      s.pump.pc = .flushChannel → s.st.channelOutbound = (id, datagram) :: rest →
      s'.st = { s.st with channelOutbound := rest } → Departs s s' (.channel id datagram)

namespace Traffic

/-- Nothing was produced yet. -/
def new : Traffic := ⟨[], []⟩

/-- How a step brings the record up to date. -/
structure Notes (s s' : Sys) (r r' : Traffic) : Prop where
  produced : (∃ queued, Produces s s' queued ∧ r'.produced = r.produced ++ queued) ∨
    (∀ queued, ¬Produces s s' queued) ∧ r'.produced = r.produced
  departed : (∃ d, Departs s s' d ∧ r'.departed = r.departed ++ [(d, s.exit d)]) ∨
    (∀ d, ¬Departs s s' d) ∧ r'.departed = r.departed

/-- Every step can be recorded. -/
theorem notes_total (s s' : Sys) (r : Traffic) : ∃ r', Notes s s' r r' := by
  have hp : ∃ produced, (∃ queued, Produces s s' queued ∧ produced = r.produced ++ queued) ∨
      (∀ queued, ¬Produces s s' queued) ∧ produced = r.produced := by
    by_cases h : ∃ queued, Produces s s' queued
    · obtain ⟨queued, h⟩ := h
      exact ⟨_, .inl ⟨queued, h, rfl⟩⟩
    · exact ⟨_, .inr ⟨not_exists.1 h, rfl⟩⟩
  have hd : ∃ departed, (∃ d, Departs s s' d ∧ departed = r.departed ++ [(d, s.exit d)]) ∨
      (∀ d, ¬Departs s s' d) ∧ departed = r.departed := by
    by_cases h : ∃ d, Departs s s' d
    · obtain ⟨d, h⟩ := h
      exact ⟨_, .inl ⟨d, h, rfl⟩⟩
    · exact ⟨_, .inr ⟨not_exists.1 h, rfl⟩⟩
  obtain ⟨produced, hp⟩ := hp
  obtain ⟨departed, hd⟩ := hd
  exact ⟨⟨produced, departed⟩, hp, hd⟩

/-- What was produced of one kind has departed, and the rest is queued, in this order. -/
def Balances {α : Type} (r : Traffic) (kind : Outbound → Option α) (queue : List α) : Prop :=
  r.produced.filterMap kind = (r.departed.map Prod.fst).filterMap kind ++ queue

section Balances

variable {α : Type} {r r' : Traffic} {kind : Outbound → Option α} {queue queue' : List α}

/-- More is produced, and queued. -/
theorem Balances.produce (h : r.Balances kind queue) {queued : List Outbound}
    (hp : r'.produced = r.produced ++ queued) (hd : r'.departed = r.departed)
    (hq : queue' = queue ++ queued.filterMap kind) : r'.Balances kind queue' := by
  rw [Balances, hp, hd, hq, List.filterMap_append, h, List.append_assoc]

/-- A datagram departs: it was the first of its queue. -/
theorem Balances.depart (h : r.Balances kind queue) {d : Outbound} {exit : Exit}
    (hp : r'.produced = r.produced) (hd : r'.departed = r.departed ++ [(d, exit)])
    (hq : queue = (kind d).toList ++ queue') : r'.Balances kind queue' := by
  rw [Balances, hp, hd, h, hq, List.map_append, List.filterMap_append, List.append_assoc]
  cases hk : kind d <;> simp [hk]

end Balances

end Traffic

/-- For each kind of wire, what was produced has departed or is queued. -/
structure Accounts (s : State) (r : Traffic) : Prop where
  relay : r.Balances Outbound.relay? s.relayOutbound
  channel : r.Balances Outbound.channel? s.channelOutbound
  udp : r.Balances Outbound.udp? s.udpOutbound

/-! ## What a step does to the queues -/

namespace State

/-- The first datagram was taken from its queue. -/
structure Dequeues (s s' : State) (d : Outbound) : Prop where
  relay : s.relayOutbound = d.relay?.toList ++ s'.relayOutbound
  channel : s.channelOutbound = d.channel?.toList ++ s'.channelOutbound
  udp : s.udpOutbound = d.udp?.toList ++ s'.udpOutbound

end State

section Steps

variable {s s' : Sys} {queued : List Outbound} {d : Outbound}

/-- What is produced is queued. -/
theorem Produces.queues (h : Produces s s' queued) : s.st.Queues s'.st queued := by
  cases h with
  | @drain polling st progressed _ _ hd hst hpicks =>
    obtain ⟨-, queued', hq, hpicks'⟩ := drain_carries hd
    -- A transmit is picked one wire only.
    obtain rfl : queued' = queued := by
      clear hq
      generalize s.st.polledTransmits polling = transmits at hpicks hpicks'
      induction hpicks generalizing queued' with
      | nil => exact List.forall₂_nil_left_iff.1 hpicks'
      | cons h _ ih =>
        obtain ⟨d', rest, h', hrest, rfl⟩ := List.forall₂_cons_left_iff.1 hpicks'
        rw [Option.some.inj (h'.symm.trans h), ih rest hrest]
    rw [hst]
    split
    · exact ⟨hq.relay, hq.channel, hq.udp⟩
    · exact hq
  | relay _ _ ha hd | channel _ _ _ ha hd => exact (handleDatagram_queues hd).enters ha
  | udp _ _ hd => exact handleDatagram_queues hd
  | signal _ _ _ _ hst =>
    rw [hst]
    exact ⟨rfl, by simp [Outbound.channel?, pushSignalOutbound, kickPump],
      by simp [Outbound.udp?, pushSignalOutbound, kickPump]⟩

/-- What departs was the first of its queue. -/
theorem Departs.dequeues (h : Departs s s' d) : s.st.Dequeues s'.st d := by
  cases h with
  | relay _ hq hst | udp _ hq hst | channel _ hq hst =>
    rw [hst]
    exact ⟨by simp [hq, Outbound.relay?], by simp [hq, Outbound.channel?],
      by simp [hq, Outbound.udp?]⟩

/-- While a datagram departs, none is produced. -/
theorem Departs.not_produces (h : Departs s s' d) : ¬Produces s s' queued := by
  have hflush : s.pump.pc ≠ .top ∧ s.pump.pc.inSelect = false ∧ s.quiet = false := by
    cases h with
    | relay hpc | udp hpc | channel hpc =>
      simp [Sys.quiet, hpc, PumpPc.inSelect, PumpPc.awaits]
  obtain ⟨htop, hselect, hquiet⟩ := hflush
  intro hp
  cases hp with
  | drain hpc => exact htop hpc
  | relay hsel | channel hsel | udp hsel =>
    rw [hselect] at hsel
    cases hsel
  | signal hq =>
    rw [hquiet] at hq
    cases hq

/-- The pump goes on to await the send of a datagram that goes to a wire. -/
def Sys.Hands (s s' : Sys) : Exit → Prop
  | .relay conn => ∃ key, s'.pump.pc = .sendRelay key conn
  | .udp => s'.pump.pc = .sendUdp
  | .channel _ => s'.pump.pc = .sendChannel
  | .lost => s'.pump.pc = s.pump.pc

/-- A datagram that departs is handed to the wire it goes to. -/
theorem PumpStep.hands (h : PumpStep s s') (hd : Departs s s' d) : s.Hands s' (s.exit d) := by
  have hselect : ∀ {pc : PumpPc}, s.pump.pc = pc → s.pump.pc.inSelect = true →
      pc.inSelect = false → False := by
    rintro pc rfl hsel hpc
    rw [hpc] at hsel
    cases hsel
  cases hd with
  | relay hpc hq =>
    cases h with
    | relayEmpty _ hq' => cases hq.symm.trans hq'
    | relayLost _ hq' hk =>
      cases hq.symm.trans hq'
      simp [Sys.exit, hk, Sys.Hands]
    | relaySend _ hq' hk =>
      cases hq.symm.trans hq'
      simp [Sys.exit, hk, Sys.Hands, Sys.goto]
    | drain hpc' | relaySent hpc' | relaySendFailed hpc' | udpEmpty hpc' | udpSend hpc'
    | udpSent hpc' | channelEmpty hpc' | channelSend hpc' | channelSent hpc' | arm hpc'
    | leave hpc' | stay hpc' | suspend hpc' | redialTaken hpc' | redialDropped hpc'
    | closeRelays hpc' | closeWires hpc' | settled hpc' => cases hpc.symm.trans hpc'
    | _ hsel => exact (hselect hpc hsel rfl).elim
  | udp hpc hq =>
    cases h with
    | udpEmpty _ hq' => cases hq.symm.trans hq'
    | udpSend => cases hu : s.config.udp <;> simp [Sys.exit, hu, Sys.Hands, Sys.goto, hpc]
    | drain hpc' | relayEmpty hpc' | relayLost hpc' | relaySend hpc' | relaySent hpc'
    | relaySendFailed hpc' | udpSent hpc' | channelEmpty hpc' | channelSend hpc'
    | channelSent hpc' | arm hpc' | leave hpc' | stay hpc' | suspend hpc' | redialTaken hpc'
    | redialDropped hpc' | closeRelays hpc' | closeWires hpc' | settled hpc' => cases hpc.symm.trans hpc'
    | _ hsel => exact (hselect hpc hsel rfl).elim
  | channel hpc hq =>
    cases h with
    | channelEmpty _ hq' => cases hq.symm.trans hq'
    | @channelSend id _ _ _ hq' =>
      cases hc : s.st.channels.lookup id <;> cases hq.symm.trans hq' <;>
        simp [Sys.exit, hc, Sys.Hands, Sys.goto, hpc]
    | drain hpc' | relayEmpty hpc' | relayLost hpc' | relaySend hpc' | relaySent hpc'
    | relaySendFailed hpc' | udpEmpty hpc' | udpSend hpc' | udpSent hpc' | channelSent hpc'
    | arm hpc' | leave hpc' | stay hpc' | suspend hpc' | redialTaken hpc' | redialDropped hpc'
    | closeRelays hpc' | closeWires hpc' | settled hpc' => cases hpc.symm.trans hpc'
    | _ hsel => exact (hselect hpc hsel rfl).elim

/-- Nothing is queued, and nothing taken from a queue. -/
def Sys.Unsent (s s' : Sys) : Prop := s.st.Queues s'.st []

/-- A step of the pump produces something, or lets it depart, or leaves the queues alone. -/
theorem PumpStep.traffic (h : PumpStep s s') :
    (∃ queued, Produces s s' queued) ∨ (∃ d, Departs s s' d) ∨ s.Unsent s' := by
  have hfails : ∀ {s₁ s₂ : Sys} {pc : PumpPc}, s₁.FailsRelays s₂ → s₁.st = s.st →
      s.Unsent (s₂.goto pc) := by
    intro s₁ s₂ pc hf hst
    rw [Sys.FailsRelays] at hf
    rw [hf, Sys.Unsent, ← hst]
    exact .of_eq rfl rfl rfl
  cases h with
  | drain hpc hd =>
    obtain ⟨-, queued, -, hpicks⟩ := drain_carries hd
    exact .inl ⟨queued, .drain hpc hd rfl hpicks⟩
  | relayLost hpc hq | relaySend hpc hq => exact .inr (.inl ⟨_, .relay hpc hq rfl⟩)
  | @udpSend item rest hpc hq => exact .inr (.inl ⟨.udp item.1 item.2, .udp hpc hq rfl⟩)
  | channelSend hpc hq => exact .inr (.inl ⟨_, .channel hpc hq rfl⟩)
  | relayDatagram hsel _ hmem _ hd =>
    obtain ⟨s₁, addr, h₁, h₂⟩ := handleRelayDatagram_eq hd
    exact .inl ⟨_, .relay hsel hmem h₁ h₂⟩
  | udpReceived hsel _ hmem hd => exact .inl ⟨_, .udp hsel hmem hd⟩
  | channelDatagram hsel _ hmem hd =>
    rcases handleChannelDatagram_cases hd with ⟨-, rfl⟩ | ⟨entry, s₁, addr, he, h₁, h₂⟩
    · exact .inr (.inr (.of_eq rfl rfl rfl))
    · exact .inl ⟨_, .channel hsel hmem he h₁ h₂⟩
  | relaySendFailed =>
    refine .inr (.inr ?_)
    split
    · exact hfails (s.failHome_fails _ _) rfl
    · exact .of_eq rfl rfl rfl
  | relayFailed => exact .inr (.inr (hfails (Sys.failReceive_fails _ _ _ _) rfl))
  | tick => exact .inr (.inr (hfails (Sys.sweep_fails _ _ _) rfl))
  | arm =>
    rw [Sys.foldl_spawnUpgrade_frame]
    exact .inr (.inr (.of_eq rfl rfl rfl))
  | relaySignal =>
    rw [Sys.handleSignal_frame]
    exact .inr (.inr (.of_eq rfl rfl rfl))
  | channelFailed =>
    rw [retireChannel_frame]
    exact .inr (.inr (.of_eq rfl rfl rfl))
  | redialFailed =>
    rw [Sys.failRedial]
    split <;> exact .inr (.inr (.of_eq rfl rfl rfl))
  | closeRelays =>
    rw [foldl_closeRelay]
    exact .inr (.inr (.of_eq rfl rfl rfl))
  | closeWires =>
    rw [foldl_closeWire]
    exact .inr (.inr (.of_eq rfl rfl rfl))
  | _ => exact .inr (.inr (.of_eq rfl rfl rfl))

/-- A session publishes a signal, or leaves the queues alone. -/
theorem SessionStep.traffic (h : SessionStep s s') :
    (∃ queued, Produces s s' queued) ∨ s.Unsent s' := by
  cases h with
  | publish hq hl hlive hr => exact .inl ⟨_, .signal hq hl hlive hr rfl⟩
  | begin _ _ _ hb =>
    obtain ⟨-, rfl⟩ := beginSignaling_eq hb
    exact .inr (.of_eq rfl rfl rfl)
  | receive =>
    rw [nextSignalCheck_frame]
    exact .inr (.of_eq rfl rfl rfl)
  | upgraded _ _ _ _ hr | answered _ _ _ _ hr =>
    rw [registerChannel_frame hr]
    exact .inr (.of_eq rfl rfl rfl)
  | busy | fail => exact .inr (.of_eq rfl rfl rfl)

/-- A step produces something, or lets it depart, or leaves the queues alone. -/
theorem Step.traffic (h : Step s s') :
    (∃ queued, Produces s s' queued) ∨ (∃ d, Departs s s' d) ∨ s.Unsent s' := by
  rcases h.cases with h | h | h | h
  · exact h.traffic
  · rw [h.frame]
    exact .inr (.inr (.of_eq rfl rfl rfl))
  · exact h.traffic.imp_right .inr
  · rw [h.frame]
    exact .inr (.inr (.of_eq rfl rfl rfl))

/-- A step keeps the accounts. -/
theorem Accounts.step {r r' : Traffic} (h : Accounts s.st r) (hst : Step s s')
    (hnote : Traffic.Notes s s' r r') : Accounts s'.st r' := by
  obtain ⟨hp | ⟨hnone, hp⟩, hd | ⟨hstay, hd⟩⟩ := hnote
  · obtain ⟨queued, hqueued, -⟩ := hp
    obtain ⟨d, hdeparts, -⟩ := hd
    exact absurd hqueued hdeparts.not_produces
  · obtain ⟨queued, hqueued, hp⟩ := hp
    have hq := hqueued.queues
    exact ⟨h.relay.produce hp hd hq.relay, h.channel.produce hp hd hq.channel,
      h.udp.produce hp hd hq.udp⟩
  · obtain ⟨d, hdeparts, hd⟩ := hd
    have hq := hdeparts.dequeues
    exact ⟨h.relay.depart hp hd hq.relay, h.channel.depart hp hd hq.channel,
      h.udp.depart hp hd hq.udp⟩
  · have hq : s.st.Queues s'.st [] := by
      rcases hst.traffic with ⟨queued, hqueued⟩ | ⟨d, hdeparts⟩ | hunsent
      · exact absurd hqueued (hnone queued)
      · exact absurd hdeparts (hstay d)
      · exact hunsent
    have hp' : r'.produced = r.produced ++ [] := by rw [hp, List.append_nil]
    exact ⟨h.relay.produce hp' hd hq.relay, h.channel.produce hp' hd hq.channel,
      h.udp.produce hp' hd hq.udp⟩

end Steps

/-- The endpoint, with the record of what it sends. -/
def sending : System (Sys × Traffic) := endpoint.observe .new Traffic.Notes

/-- Every run has a record. -/
theorem sending_total {s : Sys} (hs : endpoint.Reachable s) : ∃ r, sending.Reachable (s, r) :=
  hs.observe fun s s' r _ => Traffic.notes_total s s' r

/-- The accounts are kept in every run. -/
theorem Accounts.reachable {x : Sys × Traffic} (hx : sending.Reachable x) :
    Accounts x.1.st x.2 := by
  refine hx.invariant (P := fun x => Accounts x.1.st x.2) ?_ fun x y _ hst ih =>
    ih.step hst.1 hst.2
  rintro ⟨s, r⟩ ⟨⟨config, webrtc, now, st, key, hreg, rfl⟩, rfl⟩
  obtain ⟨-, -, rfl⟩ := registerRelay_eq hreg
  exact ⟨rfl, rfl, rfl⟩

/-! ## The pump flushes -/

/-- The pump is at the end of its turn, and nothing is queued. -/
structure Sys.Flushed (s : Sys) : Prop where
  pc : s.pump.pc = .check
  relay : s.st.relayOutbound = []
  channel : s.st.channelOutbound = []
  udp : s.st.udpOutbound = []

section Flush

variable {s s' : Sys}

/-- If no other task runs, what the pump has flushed in its turn stays empty. -/
theorem PumpStep.flushed (h : PumpStep s s') (hw : s.st.work.Flushed s.pump.pc.turn) :
    s'.st.work.Flushed s'.pump.pc.turn := by
  cases h with
  | relayEmpty _ hq => exact hq
  | relayLost hpc =>
    dsimp only
    rw [hpc]
    trivial
  | udpEmpty hpc hq =>
    rw [hpc] at hw
    exact ⟨hw, hq⟩
  | udpSend hpc =>
    rw [hpc] at hw
    dsimp only [Sys.goto]
    split <;> exact hw
  | channelEmpty hpc hq =>
    rw [hpc] at hw
    exact ⟨hw.1, hw.2, hq⟩
  | channelSend hpc =>
    rw [hpc] at hw
    dsimp only [Sys.goto]
    split <;> exact hw
  | arm hpc =>
    rw [hpc] at hw
    rw [Sys.foldl_spawnUpgrade_frame]
    exact ⟨hw, rfl, rfl, rfl⟩
  | udpSent hpc | channelSent hpc | stay hpc | suspend hpc =>
    rw [hpc] at hw
    exact hw
  | _ => trivial

/-- The end of a turn in which all was flushed. -/
theorem Sys.Flushed.of_work (hpc : s.pump.pc = .check) (hw : s.st.work.Flushed s.pump.pc.turn) :
    s.Flushed := by
  rw [hpc] at hw
  exact ⟨hpc, hw.1.1, hw.1.2.2, hw.1.2.1⟩

/-- From the select, the pump comes to the top of its loop, or to where it takes the result of a
    redial. -/
theorem PumpStep.selects (h : PumpStep s s') (hsel : s.pump.pc.inSelect = true) :
    s'.pump.pc.inSelect = true ∨ s'.pump.pc.turn = .none ∧ s'.pump.pc.left = false := by
  cases h with
  | suspend => exact .inl rfl
  | drain hpc | relayEmpty hpc | relayLost hpc | relaySend hpc | relaySent hpc | relaySendFailed hpc
  | udpEmpty hpc | udpSend hpc | udpSent hpc | channelEmpty hpc | channelSend hpc | channelSent hpc
  | arm hpc | leave hpc | stay hpc | redialTaken hpc | redialDropped hpc | closeRelays hpc
  | closeWires hpc | settled hpc =>
    rw [hpc] at hsel
    cases hsel
  | _ => exact .inr ⟨rfl, rfl⟩

/-- From outside a turn, the pump comes to the end of one in which all was flushed. -/
theorem flushes_of_none (hrun : s.running = none) (hturn : s.pump.pc.turn = .none)
    (hleft : s.pump.pc.left = false) : pumpAlone.Inevitable Sys.Flushed s := by
  have hwf : WellFounded fun a b : ℕ ×ₗ ℕ => a < b := wellFounded_lt
  refine System.Inevitable.of_rank hwf Sys.rank (I := fun s => s.running = none ∧
    s.pump.pc.left = false ∧ s.st.work.Flushed s.pump.pc.turn) ?_ ?_ ⟨hrun, hleft, ?_⟩
  · rintro s ⟨hrun, hleft, -⟩ -
    refine PumpStep.progress hrun fun hpc => ?_
    rw [hpc] at hleft
    cases hleft
  · rintro s s' ⟨hrun, hleft, hw⟩ hnot hst
    have hcheck : s.pump.pc ≠ .check := fun hpc => hnot (.of_work hpc hw)
    have hleft' : s'.pump.pc.left = false := by
      by_contra h
      rcases hst.left (Bool.eq_true_of_not_eq_false h) with hl | ⟨hpc, -⟩
      · rw [hleft] at hl
        cases hl
      · exact hcheck hpc
    exact .inr ⟨⟨(Sys.closing_eq hst.closing).1.trans hrun, hleft', hst.flushed hw⟩,
      hst.rank_lt.resolve_left fun h => hcheck h.1⟩
  · rw [hturn]
    trivial

/-- From its select, it does so in its next turn. -/
theorem flushes_of_select (hrun : s.running = none) (hsel : s.pump.pc.inSelect = true) :
    pumpAlone.Inevitable Sys.Flushed s := by
  have hwf : WellFounded fun a b : ℕ ×ₗ ℕ => a < b := wellFounded_lt
  have hturn : pumpAlone.Inevitable (fun s => s.running = none ∧ s.pump.pc.turn = .none ∧
      s.pump.pc.left = false) s := by
    refine System.Inevitable.of_rank hwf Sys.rank
      (I := fun s => s.running = none ∧ s.pump.pc.inSelect = true) ?_ ?_ ⟨hrun, hsel⟩
    · rintro s ⟨hrun, hsel⟩ -
      refine PumpStep.progress hrun fun hpc => ?_
      rw [hpc] at hsel
      cases hsel
    · rintro s s' ⟨hrun, hsel⟩ - hst
      have hrun' := (Sys.closing_eq hst.closing).1.trans hrun
      rcases hst.selects hsel with hsel' | hout
      · refine .inr ⟨⟨hrun', hsel'⟩, hst.rank_lt.resolve_left fun h => ?_⟩
        rw [h.1] at hsel
        cases hsel
      · exact .inl ⟨hrun', hout⟩
  exact hturn.trans fun s h => flushes_of_none h.1 h.2.1 h.2.2

end Flush

/-- The pump is between two turns. -/
def PumpPc.between : PumpPc → Bool
  | top | redialed _ | polling | suspended => true
  | _ => false

section Between

variable {s s' : Sys}

/-- In the middle of its turn, the pump leaves the connections alone. -/
theorem PumpStep.conns_eq (h : PumpStep s s') (hmid : s.pump.pc.between = false) :
    s'.st.conns = s.st.conns := by
  have hselect : s.pump.pc.inSelect = true → s'.st.conns = s.st.conns := by
    intro hsel
    rw [Bool.eq_false_iff] at hmid
    refine absurd ?_ hmid
    cases hpc : s.pump.pc <;> rw [hpc] at hsel <;> first | rfl | cases hsel
  cases h with
  | drain hpc =>
    rw [hpc] at hmid
    cases hmid
  | relaySendFailed =>
    split
    · exact congrArg (fun s => s.st.conns) (s.failHome_fails _ _)
    · rfl
  | arm =>
    rw [Sys.foldl_spawnUpgrade_frame]
  | closeRelays =>
    rw [foldl_closeRelay]
    rfl
  | closeWires =>
    rw [foldl_closeWire]
    rfl
  | relaySignal hsel | relayDatagram hsel | relayFailed hsel | udpReceived hsel | udpFailed hsel
  | channelDatagram hsel | channelText hsel | channelFailed hsel | redialOpened hsel
  | redialFailed hsel | kicked hsel | tick hsel => exact hselect hsel
  | redialTaken hpc | redialDropped hpc =>
    rw [hpc] at hmid
    cases hmid
  | _ => rfl

/-- In the middle of a turn in which it may not end, the pump comes to the end of the turn, and
    goes on. -/
theorem comes_between (hrun : s.running = none) (hleft : s.pump.pc.left = false)
    (hstay : s.st.mayEnd s.now = false) :
    pumpAlone.Inevitable (fun s => s.running = none ∧ s.pump.pc.between = true) s := by
  have hwf : WellFounded fun a b : ℕ ×ₗ ℕ => a < b := wellFounded_lt
  refine System.Inevitable.of_rank hwf Sys.rank (I := fun s => s.running = none ∧
    s.pump.pc.left = false ∧ s.st.mayEnd s.now = false) ?_ ?_ ⟨hrun, hleft, hstay⟩
  · rintro s ⟨hrun, hleft, -⟩ -
    refine PumpStep.progress hrun fun hpc => ?_
    rw [hpc] at hleft
    cases hleft
  · rintro s s' ⟨hrun, hleft, hstay⟩ hnot hst
    obtain ⟨hrun', hnow, hclosed, hclosedAt⟩ := Sys.closing_eq hst.closing
    rcases hst.rank_lt with ⟨-, -, hpc⟩ | hlt
    · exact .inl ⟨hrun'.trans hrun, by rw [hpc]; rfl⟩
    · have hmid : s.pump.pc.between = false := Bool.eq_false_iff.2 fun h => hnot ⟨hrun, h⟩
      refine .inr ⟨⟨hrun'.trans hrun, ?_, ?_⟩, hlt⟩
      · by_contra hleft'
        rcases hst.left (Bool.eq_true_of_not_eq_false hleft') with hl | ⟨-, -, hend⟩
        · exact Bool.false_ne_true (hleft.symm.trans hl)
        · exact Bool.false_ne_true (hstay.symm.trans hend)
      · rw [State.mayEnd, hst.conns_eq hmid, hnow, hclosed, hclosedAt]
        exact hstay

end Between

/-- Left to itself, the pump comes to the end of a turn in which all was flushed, unless it may end
    in the turn it is in the middle of, or has left its loop. -/
theorem flushes {s : Sys} (hrun : s.running = none)
    (hgo : s.pump.pc.left = false ∧ s.st.mayEnd s.now = false ∨ s.pump.pc.between = true) :
    pumpAlone.Inevitable Sys.Flushed s := by
  have hnext : ∀ {s : Sys}, s.running = none → s.pump.pc.between = true →
      pumpAlone.Inevitable Sys.Flushed s := by
    intro s hrun hbetween
    cases hpc : s.pump.pc with
    | top | redialed _ => exact flushes_of_none hrun (by rw [hpc]; rfl) (by rw [hpc]; rfl)
    | polling | suspended => exact flushes_of_select hrun (by rw [hpc]; rfl)
    | _ =>
      rw [hpc] at hbetween
      cases hbetween
  rcases hgo with ⟨hleft, hstay⟩ | hbetween
  · -- The turn it is in may have begun too early.
    exact (comes_between hrun hleft hstay).trans fun s h => hnext h.1 h.2
  · exact hnext hrun hbetween

/-! ## What is produced departs -/

/-- All that was produced has departed, each kind in its order. -/
structure Traffic.Departed (r : Traffic) : Prop where
  relay : r.Balances Outbound.relay? []
  channel : r.Balances Outbound.channel? []
  udp : r.Balances Outbound.udp? []

/-- What was produced has departed or is queued; and the pump, left to itself, comes to the end
    of a turn at which it has departed. The exception is a pump that may end in the turn it is in the
    middle of (the endpoint is closed, and every connection has drained or failed, or the linger is
    over), or that has left its loop. -/
structure Forwards (x : Sys × Traffic) : Prop where
  accounts : Accounts x.1.st x.2
  /-- What departs is handed to its wire, or is lost with it. -/
  hands : ∀ s' d, PumpStep x.1 s' → Departs x.1 s' d → x.1.Hands s' (x.1.exit d)
  flushes : x.1.running = none →
    x.1.pump.pc.left = false ∧ x.1.st.mayEnd x.1.now = false ∨ x.1.pump.pc.between = true →
    (pumpAlone.observe .new Traffic.Notes).Inevitable
      (fun y => y.1.pump.pc = .check ∧ y.2.Departed) x

/-- In every run, what is produced departs, once, in its order. -/
theorem traffic_flushed {x : Sys × Traffic} (hx : sending.Reachable x) : Forwards x := by
  refine ⟨.reachable hx, fun s' d hst hd => hst.hands hd, fun hrun hgo => ?_⟩
  have hflushes : (pumpAlone.observe .new Traffic.Notes).Inevitable
      (fun y => y.1.Flushed) x :=
    ((Bisimulation.observe fun s s' r _ => Traffic.notes_total s s' r).inevitable_iff trivial).2
      (flushes hrun hgo)
  have hkeep : ∀ y z, Accounts y.1.st y.2 → (pumpAlone.observe .new Traffic.Notes).step y z →
      Accounts z.1.st z.2 := fun y z h hst => h.step (.pump hst.1) hst.2
  refine (hflushes.and_invariant (I := fun y => Accounts y.1.st y.2) hkeep (.reachable hx)).mono ?_
  rintro y ⟨⟨hpc, hrelay, hchannel, hudp⟩, haccounts⟩
  exact ⟨hpc, hrelay ▸ haccounts.relay, hchannel ▸ haccounts.channel, hudp ▸ haccounts.udp⟩

/-- noq responds to a datagram of a peer: the response is queued for the home relay, and departs. -/
theorem traffic_flushed_response : ∃ x, sending.Reachable x ∧
    x.1.st.relayOutbound = [(homeRelay, Vector.replicate 32 7, [0x40])] ∧
    (pumpAlone.observe .new Traffic.Notes).Inevitable
      (fun y => y.1.pump.pc = .check ∧ y.2.Departed) x := by
  have hidle := idle_reachable (.relayOnly "https://home.example") false 0
  have hheard := hidle.step (.pump (@PumpStep.relayDatagram _ homeRelay ⟨0⟩ (Vector.replicate 32 7)
    [] (.response [0x40]) _ rfl rfl List.mem_cons_self rfl rfl))
  obtain ⟨r, hx⟩ := sending_total hheard
  exact ⟨_, hx, rfl, (traffic_flushed hx).flushes rfl (.inl ⟨rfl, rfl⟩)⟩

end IrohEndpoint
