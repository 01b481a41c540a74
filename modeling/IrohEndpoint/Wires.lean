import IrohEndpoint.RouteKeys

/-!
# The wire that carries a datagram

What the endpoint sends to an address leaves over the wire that the route of the
address names, or through the UDP socket if it has none (`State.picks`): that is what
`drain` does (`drain_carries`), and what a response does for the standin of a peer
(`pushResponse_picks`).

* A peer whose datagram comes over a pooled relay can be answered, unless its standin
  is still routed to a foreign relay that has left the pool: `addr_for_peer` gives the
  standin as it is (`answerable_iff`).
* The routes are those of the standins numbered so far, and nothing keeps an address
  that is received from, or dialed, from being one of them (`leavesOverUdp_iff`).
-/

namespace IrohEndpoint

open Transition State Routing

/-! ## What is picked -/

/-- The wire a datagram is queued for: none is the UDP socket. -/
def Outbound.wire : Outbound → Option RouteWire
  | relay key _ _ => some (.relay key)
  | channel id _ => some (.channel id)
  | udp _ _ => none

/-- The kind of a wire: none is the UDP socket. -/
def PathKind.ofWire : Option RouteWire → PathKind
  | some (.channel _) => .webrtc
  | some (.relay _) => .relay
  | none => .ip

namespace State

/-- The datagram that is queued for `addr`, by the route of `addr`. -/
def picks (s : State) (addr : SocketAddr) (payload : Bytes) : Option Outbound :=
  match s.routes.lookup addr with
  | some (.relay key) => (s.addrToPeer.lookup addr).map fun peer => .relay key peer payload
  | some (.channel id) => some (.channel id payload)
  | none => some (.udp addr payload)

variable {s s' : State}

/-- What is picked goes over the wire of the route. -/
theorem picks_wire {addr : SocketAddr} {payload : Bytes} {d : Outbound}
    (h : s.picks addr payload = some d) : d.wire = s.routes.lookup addr := by
  rw [picks] at h
  split at h <;> rename_i hr
  · obtain ⟨peer, -, rfl⟩ := Option.map_eq_some_iff.1 h
    exact hr.symm
  · cases h
    exact hr.symm
  · cases h
    exact hr.symm

/-- What is picked for an address without a route goes to the UDP socket. -/
theorem picks_unrouted {addr : SocketAddr} (h : addr ∉ s.routes) (payload : Bytes) :
    s.picks addr payload = some (.udp addr payload) := by
  rw [picks, AList.lookup_eq_none.2 h]

/-- Between `s` and `s'`, what is picked for each of `transmits` was queued. -/
def Carries (s s' : State) (transmits : List (SocketAddr × Bytes)) : Prop :=
  s'.routing = s.routing ∧ ∃ queued, s.Queues s' queued ∧
    List.Forall₂ (fun t d => s.picks t.1 t.2 = some d) transmits queued

/-- Nothing was queued. -/
theorem Carries.nil (h : s'.routing = s.routing) (hr : s'.relayOutbound = s.relayOutbound)
    (hc : s'.channelOutbound = s.channelOutbound) (hu : s'.udpOutbound = s.udpOutbound) :
    s.Carries s' [] :=
  ⟨h, [], .of_eq hr hc hu, .nil⟩

/-- What is picked depends on the routes and the standins. -/
theorem picks_congr (h : s'.routing = s.routing) (addr : SocketAddr) (payload : Bytes) :
    s'.picks addr payload = s.picks addr payload := by
  have hroutes : s'.routes = s.routes := congrArg Routing.routes h
  have hpeers : s'.addrToPeer = s.addrToPeer := congrArg Routing.addrToPeer h
  rw [picks, picks, hroutes, hpeers]

/-- More was queued. -/
theorem Carries.trans {s₁ s₂ s₃ : State} {t₁ t₂ : List (SocketAddr × Bytes)}
    (h₁ : s₁.Carries s₂ t₁) (h₂ : s₂.Carries s₃ t₂) : s₁.Carries s₃ (t₁ ++ t₂) := by
  obtain ⟨hr₁, q₁, hq₁, hd₁⟩ := h₁
  obtain ⟨hr₂, q₂, hq₂, hd₂⟩ := h₂
  simp only [picks_congr hr₁] at hd₂
  exact ⟨hr₂.trans hr₁, q₁ ++ q₂, hq₁.trans hq₂, List.rel_append hd₁ hd₂⟩

/-- A transmit is queued as it is picked. -/
theorem routeTransmit_carries {t : SocketAddr × Bytes} (h : s.routeTransmit t = .ok s') :
    s.Carries s' [t] := by
  rw [routeTransmit] at h
  split at h <;> rename_i hr
  · rename_i key
    split at h <;> rename_i hp
    · rename_i peer
      cases h
      refine ⟨rfl, [.relay key peer t.2], ⟨rfl, by simp [Outbound.channel?], by simp [Outbound.udp?]⟩,
        .cons ?_ .nil⟩
      simp [picks, hr, hp]
    · cases h
  · rename_i id
    cases h
    refine ⟨rfl, [.channel id t.2], ⟨by simp [Outbound.relay?], rfl, by simp [Outbound.udp?]⟩,
      .cons ?_ .nil⟩
    simp [picks, hr]
  · cases h
    refine ⟨rfl, [.udp t.1 t.2], ⟨by simp [Outbound.relay?], by simp [Outbound.channel?], rfl⟩,
      .cons ?_ .nil⟩
    simp [picks, hr]

/-- An event queues no datagram. -/
theorem pollEvent_carries {handle : ConnectionHandle} {event : Event}
    (h : pollEvent handle s event = .ok s') : s.Carries s' [] := by
  obtain ⟨hr, queued, hq, hnil⟩ := (pollEvent_ensures handle event).2 s' h
  cases hnil
  exact ⟨hr, [], hq, .nil⟩

/-- The turns of polling a connection queue their transmits as they are picked. -/
theorem drainRounds_carries {handle : ConnectionHandle} {rs : List Round} {b : Bool}
    (h : drainRounds handle rs s = .ok (s', b)) : s.Carries s' (roundTransmits rs) := by
  induction rs generalizing s b with
  | nil =>
    cases h
    exact .nil rfl rfl rfl rfl
  | cons r rs ih =>
    rw [drainRounds] at h
    rw [roundTransmits, List.takeWhile_cons]
    split at h <;> rename_i hp
    · obtain ⟨s₂, h₂, h⟩ := Except.bind_eq_ok.1 h
      obtain ⟨s₁, h₁, h₂⟩ := Except.bind_eq_ok.1 h₂
      obtain ⟨⟨s₃, b₃⟩, h₃, h⟩ := Except.bind_eq_ok.1 h
      cases h
      have hevents : s.Carries s₁ [] := Except.foldlM_rel (R := fun s s' => s.Carries s' [])
        (fun _ => .nil rfl rfl rfl rfl) (fun _ _ _ h h' => h.trans h')
        (fun _ _ _ => pollEvent_carries) h₁
      have htransmits : s₁.Carries s₂ r.transmits := Except.foldlM_trace
        (R := fun ts s s' => s.Carries s' ts) (fun _ => .nil rfl rfl rfl rfl)
        (fun _ _ _ _ _ ht hrest => (routeTransmit_carries ht).trans hrest) h₂
      rw [if_pos hp, List.flatMap_cons]
      exact (hevents.trans htransmits).trans (ih h₃)
    · cases h
      rw [if_neg hp]
      exact .nil rfl rfl rfl rfl

/-- `drain` queues every transmit as it is picked. -/
theorem drain_carries {polling : ConnectionHandle → Polling} {b : Bool}
    (h : s.drain polling = .ok (s', b)) : s.Carries s' (s.polledTransmits polling) := by
  refine Except.foldlM_trace (R := fun handles a a' => a.1.Carries a'.1
    (handles.flatMap fun handle => roundTransmits (polling handle).rounds))
    (fun _ => .nil rfl rfl rfl rfl) (fun handle handles a₁ a₂ a₃ hd hrest => ?_) h
  obtain ⟨⟨s₁, b₁⟩, h₁, hd⟩ := Except.bind_eq_ok.1 hd
  cases hd
  obtain ⟨hr, queued, hq, hnil⟩ := markDrained_sends s₁ handle (polling handle).isDrained
  cases hnil
  have hmark : s₁.Carries (s₁.markDrained handle (polling handle).isDrained).1 [] :=
    ⟨hr, [], hq, .nil⟩
  exact (drainRounds_carries h₁).trans (hmark.trans hrest)

/-- A connection reports the wire that its transmits are queued for. -/
theorem currentPath_eq {handle : ConnectionHandle} {epoch : ℕ} {entry : ConnEntry}
    (h : s.entryFor handle epoch = some entry) :
    s.currentPath handle epoch true = .ofWire (s.routes.lookup entry.conn.remote) := by
  rw [currentPath, h]
  simp only [if_true]
  split <;> rename_i hr <;> rw [hr] <;> rfl

/-- For the standin of a peer, a response to the peer is picked. -/
theorem picks_responds {addr : SocketAddr} {peer : EndpointId}
    (hp : s.addrToPeer.lookup addr = some peer) (payload : Bytes) :
    s.picks addr payload = some (s.responds addr (some peer) payload) := by
  cases hr : s.routes.lookup addr with
  | none => simp only [picks, responds, hr]
  | some wire => cases wire <;> simp only [picks, responds, hr, hp, Option.map_some]

/-- A response to a peer is queued as it is picked for the peer's standin. -/
theorem pushResponse_picks (hi : s.routing.Inv) {addr : SocketAddr} {peer : EndpointId}
    (hp : s.peerToAddr.lookup peer = some addr) (payload : Bytes) :
    ∃ d, s.picks addr payload = some d ∧ s.Queues (s.pushResponse addr (some peer) payload) [d] :=
  ⟨_, picks_responds ((hi.inverse _ _).1 hp) payload, pushResponse_queues addr (some peer) payload⟩

/-! ## Answering a peer -/

/-- A wire that datagrams can leave over: a relay in the pool, the home relay, whose
    key is kept for its next connection, or an open channel. -/
def Usable (s : State) : RouteWire → Prop
  | .relay key => key = homeRelay ∨ (s.relayPool.lookup key).isSome
  | .channel id => (s.channels.lookup id).isSome

/-- The standin of `peer` is routed to a foreign relay that has left the pool. -/
def Stranded (s : State) (peer : EndpointId) : Prop :=
  ∃ addr key, s.peerToAddr.lookup peer = some addr ∧ s.routes.lookup addr = some (.relay key) ∧
    ¬s.Usable (.relay key)

/-- After a datagram of `peer` was handled, from `s` to `s'`, the peer can be answered. -/
structure Answerable (s s' : State) (peer : EndpointId) : Prop where
  /-- The route of its standin names a wire that can be used. -/
  routed : ∃ addr wire, s'.peerToAddr.lookup peer = some addr ∧
    s'.routes.lookup addr = some wire ∧ s'.Usable wire
  /-- What was answered to the datagram is queued for such a wire. -/
  answered : ∃ queued, s.Queues s' queued ∧
    ∀ d ∈ queued, ∃ wire, d.wire = some wire ∧ s'.Usable wire
  /-- What the connections transmit to the standin is queued for such a wire. -/
  transmitted : ∀ polling st progressed, s'.drain polling = .ok (st, progressed) →
    ∃ queued, s'.Queues st queued ∧
      List.Forall₂ (fun t d => s'.peerToAddr.lookup peer = some t.1 →
        ∃ wire, d.wire = some wire ∧ s'.Usable wire) (s'.polledTransmits polling) queued

/-- A peer whose standin's route names a usable wire is answered over it. -/
theorem Answerable.of_routed {source : EndpointId} {via : RelayKey} {event : DatagramEvent}
    (hi : s'.routing.Inv) (h : s.handleRelayDatagram via source event = .ok s')
    {addr : SocketAddr} {wire : RouteWire} (hp : s'.peerToAddr.lookup source = some addr)
    (hr : s'.routes.lookup addr = some wire) (hu : s'.Usable wire) : s.Answerable s' source := by
  refine ⟨⟨addr, wire, hp, hr, hu⟩, ?_, fun polling st progressed hd => ?_⟩
  · obtain ⟨s₁, addr', h₁, h₂⟩ := handleRelayDatagram_eq h
    -- The standin was assigned before the response was queued, with the same routes.
    have hrouting : s'.routing = s₁.routing := handleDatagram_routing h₂
    have hi₁ : s₁.routing.Inv := hrouting ▸ hi
    have hp₁ : s₁.peerToAddr.lookup source = some addr := by
      rw [← hp]
      exact congrArg (fun r => r.peerToAddr.lookup source) hrouting.symm
    obtain rfl : addr' = addr := Option.some.inj ((addrForPeer_lookup h₁).symm.trans hp₁)
    refine ⟨_, (handleDatagram_queues h₂).enters h₁, fun d hd => ⟨wire, ?_, hu⟩⟩
    obtain ⟨packet, rfl⟩ := mem_responses hd
    rw [picks_wire (picks_responds ((hi₁.inverse _ _).1 hp₁) packet), ← hr]
    exact congrArg (fun r => r.routes.lookup addr') hrouting.symm
  · obtain ⟨-, queued, hq, hpicks⟩ := drain_carries hd
    refine ⟨queued, hq, hpicks.imp fun t d hd ht => ⟨wire, ?_, hu⟩⟩
    obtain rfl : addr = t.1 := Option.some.inj (hp.symm.trans ht)
    exact (picks_wire hd).trans hr

end State

/-- A peer whose datagram comes over a pooled relay can be answered if, and only if, its
    standin was not left routed to a foreign relay that has left the pool. -/
theorem answerable_iff {s : Sys} (hs : endpoint.Reachable s) {via : RelayKey} {source : EndpointId}
    {event : DatagramEvent} {st : State} (hvia : (s.st.relayPool.lookup via).isSome)
    (h : s.st.handleRelayDatagram via source event = .ok st) :
    s.st.Answerable st source ↔ ¬s.st.Stranded source := by
  have hr := routing_simulation.reachable hs
  obtain ⟨st₁, addr, h₁, h₂⟩ := handleRelayDatagram_eq h
  have hrouting : st.routing = st₁.routing := handleDatagram_routing h₂
  have hi : st.routing.Inv := by
    rw [hrouting]
    exact Inv.reachable (hr.leads (addrForPeer_leads h₁))
  have hp : st.peerToAddr.lookup source = some addr :=
    (congrArg (fun r => r.peerToAddr.lookup source) hrouting).trans (addrForPeer_lookup h₁)
  have hroute : st.routes.lookup addr = st₁.routes.lookup addr :=
    congrArg (fun r => r.routes.lookup addr) hrouting
  have hpool : st.relayPool = s.st.relayPool := by
    rw [handleRelayDatagram_frame h]
  rcases addrForPeer_cases h₁ with ⟨rfl, hold⟩ | ⟨hnew, -, -, hst₁⟩
  · -- The peer has a standin, which keeps its route.
    constructor
    · rintro ⟨⟨addr', wire, hp', hw, hu⟩, -, -⟩ ⟨addr'', key, hold', hkey, hdead⟩
      obtain rfl : addr = addr' := Option.some.inj (hp.symm.trans hp')
      obtain rfl : addr = addr'' := Option.some.inj (hold.symm.trans hold')
      obtain rfl : wire = .relay key := Option.some.inj (hw.symm.trans (hroute.trans hkey))
      rw [Usable, hpool] at hu
      exact hdead hu
    · intro hsound
      obtain ⟨wire, hw⟩ : ∃ wire, st.routes.lookup addr = some wire := by
        rw [← Option.isSome_iff_exists, AList.lookup_isSome]
        refine (hi.routed addr).2 (AList.lookup_isSome.1 ?_)
        exact Option.isSome_iff_exists.2 ⟨source, (hi.inverse _ _).1 hp⟩
      refine .of_routed hi h hp hw ?_
      cases wire with
      | relay key =>
        by_contra hdead
        rw [Usable, hpool] at hdead
        exact hsound ⟨addr, key, hold, hroute.symm.trans hw, hdead⟩
      | channel id =>
        obtain ⟨entry, hc, -⟩ := hi.channel addr id hw
        exact Option.isSome_iff_exists.2 ⟨entry, hc⟩
  · -- A new standin is routed to the relay the datagram came over.
    have hw : st.routes.lookup addr = some (.relay via) := by
      rw [hroute, hst₁]
      exact AList.lookup_insert _
    refine iff_of_true (.of_routed hi h hp hw ?_) ?_
    · rw [Usable, hpool]
      exact .inr hvia
    · rintro ⟨addr', _, hold, -⟩
      rw [hnew] at hold
      cases hold

/-- A step that does not retire a relay whose key is held or that a standin is routed to,
    and in which a receive that outlives its relay brings no new peer and no new session. -/
structure Sys.Rooted (s s' : Sys) : Prop extends s.Lasting s' where
  named : ∀ key, s.Pooled key → ¬s'.Pooled key →
    ∀ addr, s.st.routes.lookup addr ≠ some (.relay key)

/-- In every run of such steps, no peer is stranded. -/
theorem not_stranded_reachable {s : Sys} (hs : (endpoint.restrict Sys.Rooted).Reachable s)
    (peer : EndpointId) : ¬s.st.Stranded peer := by
  suffices ∀ addr key, s.st.routes.lookup addr = some (.relay key) → s.Pooled key by
    rintro ⟨addr, key, -, hr, hdead⟩
    exact hdead (this addr key hr)
  refine hs.invariant (P := fun s => ∀ addr key, s.st.routes.lookup addr = some (.relay key) →
    s.Pooled key) ?_ fun s s' hr hst ih addr key hroute => ?_
  · rintro s ⟨config, webrtc, now, st, key, hst, rfl⟩ addr key' hroute
    rw [Sys.bound, (registerRelay_eq hst).2.2] at hroute
    cases hroute
  · by_contra hdead
    have hr' : (endpoint.restrict Sys.Lasting).Reachable s := hr.weaken fun _ _ => (·.toLasting)
    have hold := (routesPooled_reachable hr').retired s' hst.1 hst.2.toLasting addr key hroute hdead
    exact hst.2.named key (ih addr key hold) hdead addr hold

/-- A first datagram over the home relay can be answered. -/
theorem answerable_first_datagram : ∃ (s : Sys) (st : State), endpoint.Reachable s ∧
    s.st.handleRelayDatagram homeRelay (Vector.replicate 32 7) (.newConnection [] (.ok 0)) =
      .ok st ∧
    s.st.Answerable st (Vector.replicate 32 7) := by
  have hidle := idle_reachable (.relayOnly "https://home.example") false 0
  refine ⟨_, _, hidle, rfl, (@answerable_iff _ hidle homeRelay _ (.newConnection [] (.ok 0)) _ rfl
    rfl).2 ?_⟩
  rintro ⟨_, _, hp, -⟩
  cases hp

/-- A peer is heard through a foreign relay, which dies, and then starts a connection
    over the home relay: its standin is still routed to the dead relay. -/
theorem not_answerable_stranded : ∃ (s : Sys) (st : State), endpoint.Reachable s ∧
    (s.st.relayPool.lookup homeRelay).isSome = true ∧
    s.st.handleRelayDatagram homeRelay (Vector.replicate 32 9) (.newConnection [] (.ok 1)) =
      .ok st ∧
    ¬s.st.Answerable st (Vector.replicate 32 9) := by
  have hidle := idle_reachable (.relayOnly "https://home.example") true 0
  -- The application dials some peer through the foreign relay, which joins the pool.
  have hcall := hidle.step (.connect (@ConnectStep.call _ 0
    ⟨List.replicate 32 7, [.relay "https://other.example"]⟩ (Vector.replicate 32 7) rfl rfl rfl))
  have hclaimed := hcall.step (.connect (@ConnectStep.claimed _ 0 _ .dial
    "https://other.example" _ rfl rfl rfl rfl rfl))
  have hopened := hclaimed.step (.connect (@ConnectStep.opened _ 0 _ .dial
    "https://other.example" _ 1 rfl rfl rfl rfl rfl))
  have hskip := hopened.step (.connect (@ConnectStep.skip _ 0 _ (.upgrade 1) rfl rfl rfl rfl))
  have hdialed := hskip.step (.connect (@ConnectStep.dialed _ 0 _ 1 none _ _ _ 0 0
    rfl rfl rfl rfl rfl rfl))
  have hkicked := hdialed.step (.pump (.kicked rfl rfl rfl))
  have hdrain := hkicked.step (.pump (@PumpStep.drain _ (fun _ => ⟨[], false⟩) _ _ rfl rfl))
  have hselect := select_reachable hdrain rfl rfl rfl rfl rfl rfl
  -- Another peer is heard through it.
  have hheard := hselect.step (.pump (@PumpStep.relayDatagram _ 1 ⟨1⟩ (Vector.replicate 32 9) []
    .ignored _ rfl rfl (List.mem_cons_of_mem _ List.mem_cons_self) rfl rfl))
  have hdrain' := hheard.step (.pump (@PumpStep.drain _ (fun _ => ⟨[], false⟩) _ _ rfl rfl))
  have hselect' := select_reachable hdrain' rfl rfl rfl rfl rfl rfl
  -- The liveness sweep finds the foreign relay dead.
  have hdead := hselect'.step (.pump (@PumpStep.tick _
    (fun conn => if conn.id = 1 then .dead else .healthy) none rfl rfl))
  have hdrain'' := hdead.step (.pump (@PumpStep.drain _ (fun _ => ⟨[], false⟩) _ _ rfl rfl))
  have hselect'' := select_reachable hdrain'' rfl rfl rfl rfl rfl rfl
  refine ⟨_, _, hselect'', rfl, rfl, ?_⟩
  rintro ⟨⟨addr, wire, hp, hw, hu⟩, -, -⟩
  cases hp
  cases hw
  rcases hu with hu | hu <;> cases hu

/-! ## Real addresses -/

/-- The routes are those of the standins numbered so far, from 1 on. -/
theorem Routing.mem_routes_iff {r : Routing} (hr : machine.Reachable r) {addr : SocketAddr} :
    addr ∈ r.routes ↔ ∃ n, 1 ≤ n ∧ n ≤ r.nextHost ∧ addr = docPrefixAddr 0x77 n := by
  induction hr with
  | init h =>
    cases h
    refine iff_of_false (AList.notMem_empty _) ?_
    rintro ⟨n, hpos, hle, -⟩
    exact absurd hpos (Nat.not_le.2 (Nat.lt_succ_of_le hle))
  | @step r r' hr hst ih =>
    have hi := Inv.reachable hr
    cases hst with
    | assign =>
      rw [AList.mem_insert, ih]
      constructor
      · rintro (rfl | ⟨n, hpos, hle, rfl⟩)
        · exact ⟨_, Nat.le_add_left _ _, le_rfl, rfl⟩
        · exact ⟨n, hpos, Nat.le_succ_of_le hle, rfl⟩
      · rintro ⟨n, hpos, hle, rfl⟩
        rcases Nat.le_succ_iff.1 hle with hle | rfl
        · exact .inr ⟨n, hpos, hle, rfl⟩
        · exact .inl rfl
    | @reroute addr' wire key hw =>
      rw [AList.mem_insert, ← ih]
      refine or_iff_right_of_imp ?_
      rintro rfl
      exact AList.lookup_isSome.1 (Option.isSome_iff_exists.2 ⟨wire, hw⟩)
    | «open» => exact ih
    | @upgrade addr' id entry hc hp =>
      rw [AList.mem_insert, ← ih]
      refine or_iff_right_of_imp ?_
      rintro rfl
      -- The address is a standin, and every standin has a route.
      refine (hi.routed _).2 (AList.lookup_isSome.1 ?_)
      exact Option.isSome_iff_exists.2 ⟨entry.peer, (hi.inverse _ _).1 hp⟩
    | retire => exact ih

namespace State

/-- What the endpoint sends to `addr` leaves through the UDP socket, and a connection to
    `addr` says so. -/
structure LeavesOverUdp (s : State) (addr : SocketAddr) : Prop where
  /-- The address is no key of the route table. -/
  unrouted : addr ∉ s.routes
  /-- `drain` queues every transmit to it for the UDP socket. -/
  transmitted : ∀ polling st progressed, s.drain polling = .ok (st, progressed) →
    ∃ queued, s.Queues st queued ∧ List.Forall₂ (fun t d => t.1 = addr → d = .udp addr t.2)
      (s.polledTransmits polling) queued
  /-- What is answered to a datagram from it is queued for the UDP socket. -/
  answered : ∀ event st, s.handleUdpDatagram addr event = .ok st →
    ∃ queued, s.Queues st queued ∧ ∀ d ∈ queued, d = .udp addr d.payload
  /-- A connection whose network path leads to it reports the path `ip`. -/
  path : ∀ handle epoch entry, s.entryFor handle epoch = some entry → entry.conn.remote = addr →
    s.currentPath handle epoch true = .ip

/-- For an address without a route, the UDP socket is picked throughout. -/
theorem LeavesOverUdp.of_unrouted {s : State} {addr : SocketAddr} (h : addr ∉ s.routes) :
    s.LeavesOverUdp addr := by
  have hnone : s.routes.lookup addr = none := AList.lookup_eq_none.2 h
  refine ⟨h, fun polling st progressed hd => ?_, fun event st he => ?_,
    fun handle epoch entry hentry hremote => ?_⟩
  · obtain ⟨-, queued, hq, hpicks⟩ := drain_carries hd
    refine ⟨queued, hq, hpicks.imp fun t d hd ht => ?_⟩
    subst ht
    exact (Option.some.inj ((picks_unrouted h t.2).symm.trans hd)).symm
  · refine ⟨_, handleDatagram_queues he, fun d hd => ?_⟩
    obtain ⟨packet, rfl⟩ := mem_responses hd
    simp only [responds, hnone, Outbound.payload]
  · rw [currentPath_eq hentry, hremote, hnone]
    rfl

/-- For the standin of a peer, `drain`, a response and the path that a connection reports
    pick the same wire. -/
def WiresAgree (s : State) : Prop :=
  ∀ peer addr payload, s.peerToAddr.lookup peer = some addr →
    ∃ d, s.picks addr payload = some d ∧ s.Queues (s.pushResponse addr (some peer) payload) [d] ∧
      ∀ handle epoch entry, s.entryFor handle epoch = some entry → entry.conn.remote = addr →
        s.currentPath handle epoch true = .ofWire d.wire

end State

/-- What the endpoint sends to an address leaves through the UDP socket if, and only if,
    the address is not one of the standins numbered so far. For the standins, the three
    readers of the route table agree. -/
theorem leavesOverUdp_iff {s : Sys} (hs : endpoint.Reachable s) :
    (∀ addr, s.st.LeavesOverUdp addr ↔
      ∀ n, 1 ≤ n → n ≤ s.st.nextHost → addr ≠ docPrefixAddr 0x77 n) ∧ s.st.WiresAgree := by
  have hr := routing_simulation.reachable hs
  refine ⟨fun addr => ⟨fun h n hpos hle haddr => ?_, fun h => .of_unrouted fun hmem => ?_⟩,
    fun peer addr payload hp => ?_⟩
  · exact h.unrouted ((mem_routes_iff hr).2 ⟨n, hpos, hle, haddr⟩)
  · obtain ⟨n, hpos, hle, haddr⟩ := (mem_routes_iff hr).1 hmem
    exact h n hpos hle haddr
  · obtain ⟨d, hd, hq⟩ := pushResponse_picks (Inv.reachable hr) hp payload
    refine ⟨d, hd, hq, fun handle epoch entry hentry hremote => ?_⟩
    rw [currentPath_eq hentry, hremote, picks_wire hd]

/-- The configuration of an endpoint with a UDP socket, that reads one address text. -/
def Config.withUdp : Config where
  homeUrl := "https://home.example"
  udp := true
  parseSocketAddr text :=
    if text = "[2001:db8:77::1]:4433" then some (docPrefixAddr 0x77 1)
    else if text = "192.0.2.1:4433" then some (.v4 #v[192, 0, 2, 1] 4433) else none

/-- An IPv4 address is no standin. -/
theorem leavesOverUdp_ipv4 : ∃ s : Sys, endpoint.Reachable s ∧
    s.config.parseSocketAddr "192.0.2.1:4433" = some (.v4 #v[192, 0, 2, 1] 4433) ∧
    s.st.LeavesOverUdp (.v4 #v[192, 0, 2, 1] 4433) := by
  have hidle := idle_reachable .withUdp false 0
  exact ⟨_, hidle, rfl, ((leavesOverUdp_iff hidle).1 _).2 fun n _ _ => nofun⟩

/-- A peer is dialed at the address that stands in for another one: the packets of the
    connection go to the home relay, for that other peer. -/
theorem not_leavesOverUdp_dialed : ∃ s : Sys, endpoint.Reachable s ∧
    s.config.udp = true ∧
    DialPlan.select s.config s.st.webrtcEnabled [.ip "[2001:db8:77::1]:4433"] =
      ⟨some (docPrefixAddr 0x77 1), none, none⟩ ∧
    ¬s.st.LeavesOverUdp (docPrefixAddr 0x77 1) ∧
    (∃ entry, s.st.entryFor 0 0 = some entry ∧ entry.conn.origin = .dialed (Vector.replicate 32 8) ∧
      entry.conn.remote = docPrefixAddr 0x77 1) ∧
    s.st.currentPath 0 0 true = .relay ∧
    (∀ payload, s.st.picks (docPrefixAddr 0x77 1) payload =
      some (.relay homeRelay (Vector.replicate 32 7) payload)) ∧
    ∀ payload, s.st.pushResponse (docPrefixAddr 0x77 1) none payload =
      { s.st with udpOutbound := s.st.udpOutbound ++ [(docPrefixAddr 0x77 1, payload)] } := by
  have hidle := idle_reachable .withUdp false 0
  have hheard := hidle.step (.pump (@PumpStep.relayDatagram _ homeRelay ⟨0⟩ (Vector.replicate 32 7)
    [] .ignored _ rfl rfl List.mem_cons_self rfl rfl))
  have hdrain := hheard.step (.pump (@PumpStep.drain _ (fun _ => ⟨[], false⟩) _ _ rfl rfl))
  have hselect := select_reachable hdrain rfl rfl rfl rfl rfl rfl
  have hrest := hselect.step (.pump (.suspend rfl rfl))
  have hcall := hrest.step (.connect (@ConnectStep.call _ 0
    ⟨List.replicate 32 8, [.ip "[2001:db8:77::1]:4433"]⟩ (Vector.replicate 32 8) rfl rfl rfl))
  have hskip := hcall.step (.connect (@ConnectStep.skip _ 0 _ .dial rfl rfl rfl rfl))
  have hskip' := hskip.step (.connect (@ConnectStep.skip _ 0 _ (.upgrade homeRelay) rfl rfl rfl rfl))
  have hdialed := hskip'.step (.connect (@ConnectStep.dialed _ 0 _ homeRelay none _ _ _ 0 0
    rfl rfl rfl rfl rfl rfl))
  refine ⟨_, hdialed, rfl, rfl, fun h => ?_, ⟨_, rfl, rfl, rfl⟩, rfl, fun _ => rfl, fun _ => rfl⟩
  exact h.unrouted ((AList.mem_insert _).2 (.inl rfl))

end IrohEndpoint
