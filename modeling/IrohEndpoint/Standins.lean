import IrohEndpoint.Traffic

/-!
# Whom a datagram reaches

noq sends to addresses, and the standin of a peer should lead to that peer, over a relay or a
channel, whoever else the endpoint talks to. `Mail` is what was queued for an address, by `drain`
or by `push_response`, with the tables of that moment; a run has the record of all of it
(`mailing`).

The tables are consistent in every state (`StandinsConsistent`), and what the connections transmit
reaches the right peer, as does what is answered to a datagram of a relay or a channel. A datagram
of the UDP socket has no peer, and `push_response` wants one to answer over a relay: what answers a
datagram from a standin that is routed to a relay goes to the UDP socket instead
(`not_addressed_crossed`). Nothing else goes astray (`addressed_reachable`).
-/

namespace IrohEndpoint

open Transition State Routing

/-- Why a datagram was queued: a connection transmits it, or it answers a datagram, of a peer or of
    the UDP socket. -/
inductive Cause
  | transmit
  | answer (source : Option EndpointId)

/-- A datagram that was queued for an address, with the standins and the routes of that moment. -/
structure Mail where
  cause : Cause
  addr : SocketAddr
  routing : Routing
  datagram : Outbound

namespace Mail

/-- If its address stands in for a peer, it is addressed to that peer, on a relay or a channel. -/
def Right (m : Mail) : Prop :=
  ∀ peer, m.routing.addrToPeer.lookup m.addr = some peer →
    m.routing.addressee m.datagram = some peer

/-- It answers a datagram of the UDP socket that came from a standin, routed to a relay. -/
def Crossed (m : Mail) : Prop :=
  m.cause = .answer none ∧ ∃ key, m.routing.routes.lookup m.addr = some (.relay key)

end Mail

/-- What is answered to a datagram from `addr`, as mail to that address. -/
def State.answers (s : State) (addr : SocketAddr) (source : Option EndpointId)
    (event : DatagramEvent) : List Mail :=
  (s.responses addr source event).map (Mail.mk (.answer source) addr s.routing)

/-- A step in which `drain` or `push_response` queues something: each transmit of the connections as
    it is picked, or the answers to a datagram of a relay, of a channel or of the UDP socket. -/
inductive Mails (s s' : Sys) : List Mail → Prop
  | drain {polling : ConnectionHandle → Polling} {st : State} {progressed : Bool}
      {queued : List Outbound} :
      s.pump.pc = .top → s.st.drain polling = .ok (st, progressed) →
      s'.st = (if progressed || s.pump.forceWake then st.wakeWaiters else st) →
      List.Forall₂ (fun t d => s.st.picks t.1 t.2 = some d) (s.st.polledTransmits polling) queued →
      Mails s s' (((s.st.polledTransmits polling).zip queued).map fun x =>
        ⟨.transmit, x.1.1, s.st.routing, x.2⟩)
  | relay {key : RelayKey} {conn : RelayConn} {source : EndpointId} {event : DatagramEvent}
      {st : State} {addr : SocketAddr} :
      s.pump.pc.inSelect = true → (key, conn) ∈ s.pump.relayRecvs →
      s.st.addrForPeer source key = .ok (st, addr) →
      st.handleDatagram addr (some source) (.relay source) event = .ok s'.st →
      Mails s s' (st.answers addr (some source) event)
  | channel {id : ChannelId} {wire : ChannelWire} {entry : ChannelEntry} {event : DatagramEvent}
      {st : State} {addr : SocketAddr} :
      s.pump.pc.inSelect = true → (id, wire) ∈ s.pump.channelRecvs →
      s.st.channels.lookup id = some entry →
      s.st.addrForPeer entry.peer entry.fallbackRelay = .ok (st, addr) →
      st.handleDatagram addr (some entry.peer) (.channel id entry.peer) event = .ok s'.st →
      Mails s s' (st.answers addr (some entry.peer) event)
  | udp {remote : SocketAddr} {event : DatagramEvent} :
      s.pump.pc.inSelect = true → s.pump.udpRecv = true →
      s.st.handleUdpDatagram remote event = .ok s'.st →
      Mails s s' (s.st.answers remote none event)

/-- How a step brings the record up to date. -/
def Mails.Notes (s s' : Sys) (log log' : List Mail) : Prop :=
  (∃ mails, Mails s s' mails ∧ log' = log ++ mails) ∨ (∀ mails, ¬Mails s s' mails) ∧ log' = log

/-- The endpoint, with the record of its mail. -/
def mailing : System (Sys × List Mail) := endpoint.observe [] Mails.Notes

/-- Every run has a record. -/
theorem mailing_total {s : Sys} (hs : endpoint.Reachable s) : ∃ log, mailing.Reachable (s, log) := by
  refine hs.observe fun s s' log _ => ?_
  by_cases h : ∃ mails, Mails s s' mails
  · obtain ⟨mails, h⟩ := h
    exact ⟨_, .inl ⟨mails, h, rfl⟩⟩
  · exact ⟨_, .inr ⟨not_exists.1 h, rfl⟩⟩

/-- A step with mail, on the record. -/
theorem mailing_step {s s' : Sys} {log mails : List Mail} (hx : mailing.Reachable (s, log))
    (hst : Step s s') (hm : Mails s s' mails) : mailing.Reachable (s', log ++ mails) :=
  hx.step ⟨hst, .inl ⟨mails, hm, rfl⟩⟩

/-! ## The record is complete -/

/-- A signal is no mail: it is queued for a peer of a relay, and not for an address. -/
def Outbound.Signals : Outbound → Prop
  | relay _ _ payload => isSignal payload = true
  | _ => False

/-- What the answers of `s` are. -/
theorem State.map_answers (s : State) (addr : SocketAddr) (source : Option EndpointId)
    (event : DatagramEvent) :
    (s.answers addr source event).map Mail.datagram = s.responses addr source event := by
  rw [answers, List.map_map]
  exact List.map_id _

section Steps

variable {s s' : Sys} {queued : List Outbound}

/-- What is produced in a step is mail, or a signal. -/
theorem Produces.mails (h : Produces s s' queued) :
    (∃ mails, Mails s s' mails ∧ mails.map Mail.datagram = queued) ∨
      ∃ d, queued = [d] ∧ d.Signals := by
  cases h with
  | drain hpc hd hst hpicks =>
    refine .inl ⟨_, .drain hpc hd hst hpicks, ?_⟩
    rw [List.map_map]
    exact List.map_snd_zip hpicks.length_eq.ge
  | relay hsel hmem ha hd => exact .inl ⟨_, .relay hsel hmem ha hd, map_answers ..⟩
  | channel hsel hmem he ha hd => exact .inl ⟨_, .channel hsel hmem he ha hd, map_answers ..⟩
  | udp hsel hrecv hd => exact .inl ⟨_, .udp hsel hrecv hd, map_answers ..⟩
  | signal => exact .inr ⟨_, rfl, rfl⟩

/-- What a step queues is its mail, or a signal; other steps take from the queues, or leave them
    alone. -/
theorem Step.mails (h : Step s s') :
    (∃ mails, Mails s s' mails ∧ s.st.Queues s'.st (mails.map Mail.datagram)) ∨
      (∃ d, s.st.Queues s'.st [d] ∧ d.Signals) ∨ (∃ d, Departs s s' d) ∨ s.Unsent s' := by
  rcases h.traffic with ⟨queued, hqueued⟩ | h
  · have hqueues := hqueued.queues
    rcases hqueued.mails with ⟨mails, hmails, rfl⟩ | ⟨d, rfl, hsignal⟩
    · exact .inl ⟨mails, hmails, hqueues⟩
    · exact .inr (.inl ⟨d, hqueues, hsignal⟩)
  · exact .inr (.inr h)

end Steps

/-! ## Who is addressed -/

namespace State

variable {s : State} {addr : SocketAddr} {peer : EndpointId}

/-- What is picked for a standin is addressed to its peer. -/
theorem picks_addressee (hi : s.routing.Inv) {payload : Bytes} {d : Outbound}
    (h : s.picks addr payload = some d) (hp : s.addrToPeer.lookup addr = some peer) :
    s.routing.addressee d = some peer := by
  obtain ⟨wire, hw⟩ := routed_of_standin hi hp
  cases wire with
  | relay key =>
    simp only [picks, hw, hp, Option.map_some, Option.some.injEq] at h
    rw [← h]
    rfl
  | channel id =>
    simp only [picks, hw, Option.some.injEq] at h
    rw [← h]
    exact (channel_addressee hi hw payload).trans hp

/-- What is answered is a response. -/
theorem mem_answers {source : Option EndpointId} {event : DatagramEvent} {m : Mail}
    (h : m ∈ s.answers addr source event) :
    ∃ packet, m = ⟨.answer source, addr, s.routing, s.responds addr source packet⟩ := by
  obtain ⟨d, hd, rfl⟩ := List.mem_map.1 h
  obtain ⟨packet, rfl⟩ := mem_responses hd
  exact ⟨packet, rfl⟩

/-- What answers a datagram of a peer, under its standin, is addressed to the peer. -/
theorem answers_peer (hi : s.routing.Inv) (hp : s.addrToPeer.lookup addr = some peer)
    {event : DatagramEvent} {m : Mail} (h : m ∈ s.answers addr (some peer) event) :
    m.Right ∧ ¬m.Crossed := by
  obtain ⟨packet, rfl⟩ := mem_answers h
  refine ⟨fun peer' hp' => ?_, fun hcrossed => by cases hcrossed.1⟩
  exact (responds_addressee hi hp packet).trans (hp.symm.trans hp')

/-- What answers a datagram of the UDP socket is addressed to the peer behind its source, if its
    source is not routed to a relay. -/
theorem answers_udp (hi : s.routing.Inv) {event : DatagramEvent} {m : Mail}
    (h : m ∈ s.answers addr none event) : m.Right ↔ ¬m.Crossed := by
  obtain ⟨packet, rfl⟩ := mem_answers h
  cases hw : s.routes.lookup addr with
  | none =>
    -- The address is no standin.
    refine iff_of_true (fun peer hp => ?_) fun ⟨_, key, hkey⟩ => ?_
    · obtain ⟨wire, hw'⟩ := routed_of_standin hi hp
      rw [hw] at hw'
      cases hw'
    · cases hw.symm.trans hkey
  | some wire =>
    cases wire with
    | relay key =>
      obtain ⟨peer, hp⟩ : ∃ peer, s.addrToPeer.lookup addr = some peer := by
        rw [← Option.isSome_iff_exists, AList.lookup_isSome]
        exact (hi.routed addr).1 (AList.lookup_isSome.1 (Option.isSome_iff_exists.2 ⟨_, hw⟩))
      refine iff_of_false (fun hright => ?_) (not_not_intro ⟨rfl, key, hw⟩)
      have haddressee := hright peer hp
      simp only [responds, hw] at haddressee
      cases haddressee
    | channel id =>
      refine iff_of_true (fun peer hp => ?_) fun ⟨_, key, hkey⟩ => ?_
      · simp only [responds, hw]
        exact (channel_addressee hi hw packet).trans hp
      · cases hw.symm.trans hkey

end State

/-- What a step mails reaches the right peer, unless it answers a datagram of the UDP socket from a
    standin that is routed to a relay. -/
theorem Mails.right {s s' : Sys} {mails : List Mail} (hs : endpoint.Reachable s)
    (h : Mails s s' mails) : ∀ m ∈ mails, m.Right ↔ ¬m.Crossed := by
  have hr := routing_simulation.reachable hs
  have hi := Inv.reachable hr
  have henters : ∀ {peer : EndpointId} {via : RelayKey} {st : State} {addr : SocketAddr},
      s.st.addrForPeer peer via = .ok (st, addr) →
        st.routing.Inv ∧ st.addrToPeer.lookup addr = some peer := by
    intro peer via st addr ha
    have hi' := Inv.reachable (hr.leads (addrForPeer_leads ha))
    exact ⟨hi', (hi'.inverse _ _).1 (addrForPeer_lookup ha)⟩
  intro m hm
  cases h with
  | drain _ _ _ hpicks =>
    obtain ⟨⟨t, d⟩, hmem, rfl⟩ := List.mem_map.1 hm
    refine iff_of_true (fun peer hp => ?_) fun hcrossed => by cases hcrossed.1
    exact picks_addressee hi (List.forall₂_zip hpicks hmem) hp
  | relay _ _ ha | channel _ _ _ ha =>
    obtain ⟨hi', hp⟩ := henters ha
    obtain ⟨hright, hcrossed⟩ := answers_peer hi' hp hm
    exact iff_of_true hright hcrossed
  | udp => exact answers_udp hi hm

/-- The standin tables are consistent, and all mail reaches the right peer that does not answer a
    datagram of the UDP socket from a standin. -/
structure Addressed (x : Sys × List Mail) : Prop where
  standins : StandinsConsistent x.1
  /-- What was mailed for a standin is addressed to its peer, exactly if it is not crossed. -/
  right : ∀ m ∈ x.2, m.Right ↔ ¬m.Crossed
  /-- Whatever a step queues is mail, if it is no signal. -/
  recorded : ∀ s', Step x.1 s' →
    (∃ mails, Mails x.1 s' mails ∧ x.1.st.Queues s'.st (mails.map Mail.datagram)) ∨
      (∃ d, x.1.st.Queues s'.st [d] ∧ d.Signals) ∨ (∃ d, Departs x.1 s' d) ∨ x.1.Unsent s'

/-- In every run, the standin tables are consistent, and everything that was mailed to a standin is
    addressed to its peer, exactly if it does not answer a datagram of the UDP socket that came from
    a standin, routed to a relay. -/
theorem addressed_reachable {x : Sys × List Mail} (hx : mailing.Reachable x) : Addressed x := by
  refine ⟨standinsConsistent_reachable hx.of_observe, ?_, fun s' hst => hst.mails⟩
  refine hx.invariant (P := fun x => ∀ m ∈ x.2, m.Right ↔ ¬m.Crossed) ?_ fun x y hr hst ih => ?_
  · rintro x ⟨-, hlog⟩
    rw [hlog]
    exact List.forall_mem_nil _
  · rcases hst.2 with ⟨mails, hmails, hlog⟩ | ⟨-, hlog⟩ <;> rw [hlog]
    · exact List.forall_mem_append.2 ⟨ih, hmails.right hr.of_observe⟩
    · exact ih

/-- A peer is heard over the home relay, and answered there. -/
theorem addressed_first_datagram : ∃ x, mailing.Reachable x ∧ ∃ m ∈ x.2,
    m.addr = docPrefixAddr 0x77 1 ∧ m.datagram = .relay homeRelay (Vector.replicate 32 7) [0x40] ∧
      m.Right := by
  obtain ⟨log, hidle⟩ := mailing_total (idle_reachable .withUdp false 0)
  have hheard := mailing_step hidle (.pump (@PumpStep.relayDatagram _ homeRelay ⟨0⟩
    (Vector.replicate 32 7) [] (.response [0x40]) _ rfl rfl List.mem_cons_self rfl rfl))
    (@Mails.relay _ _ homeRelay ⟨0⟩ (Vector.replicate 32 7) (.response [0x40]) _ _ rfl
      List.mem_cons_self rfl rfl)
  have hright := (addressed_reachable hheard).right _ (List.mem_append_right log List.mem_cons_self)
  refine ⟨_, hheard, _, List.mem_append_right log List.mem_cons_self, rfl, rfl, hright.2 ?_⟩
  rintro ⟨hcause, -⟩
  cases hcause

/-- A datagram of the UDP socket comes from the standin of a peer that was heard over the home
    relay: what noq answers is queued for the UDP socket, not for that peer. -/
theorem not_addressed_crossed : ∃ x, mailing.Reachable x ∧ ∃ m ∈ x.2,
    m.routing.addrToPeer.lookup m.addr = some (Vector.replicate 32 7) ∧
      m.routing.routes.lookup m.addr = some (.relay homeRelay) ∧
      m.datagram = .udp (docPrefixAddr 0x77 1) [0x40] ∧ ¬m.Right := by
  have hidle := idle_reachable .withUdp false 0
  have hheard := hidle.step (.pump (@PumpStep.relayDatagram _ homeRelay ⟨0⟩ (Vector.replicate 32 7)
    [] .ignored _ rfl rfl List.mem_cons_self rfl rfl))
  have hdrain := hheard.step (.pump (@PumpStep.drain _ (fun _ => ⟨[], false⟩) _ _ rfl rfl))
  obtain ⟨log, hselect⟩ := mailing_total (select_reachable hdrain rfl rfl rfl rfl rfl rfl)
  have hcrossed := mailing_step hselect (.pump (@PumpStep.udpReceived _ (docPrefixAddr 0x77 1)
    (.response [0x40]) _ rfl rfl rfl rfl))
    (@Mails.udp _ _ (docPrefixAddr 0x77 1) (.response [0x40]) rfl rfl rfl)
  refine ⟨_, hcrossed, _, List.mem_append_right log List.mem_cons_self, rfl, rfl, rfl,
    fun hright => ?_⟩
  have haddressee := hright (Vector.replicate 32 7) rfl
  cases haddressee

end IrohEndpoint
