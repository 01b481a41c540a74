import IrohEndpoint.Network

/-!
# Telling signals from QUIC packets

The pump takes a relay datagram for a signal if its first byte is `signalPrefix`.
A QUIC packet has that first byte exactly if it has a short header whose fixed
bit, spin bit and protected bits are all 0 (`Header.byte_eq_signalPrefix_iff`).
Without greasing, noq sets the fixed bit of every packet, and no packet has it.
`bind` leaves the greasing on, and some packets do.

`exact_iff_of_reachable`: in every run of a network of bound endpoints, a
datagram that arrives is handled as what it is exactly if it is not such a
packet.
-/

namespace IrohEndpoint

open Transition

/-! ## The first byte -/

/-- A long header is not taken for a signal. -/
theorem Header.long_byte_ne (fixed : Bool) (bits : BitVec 6) :
    (Header.long fixed bits).byte ≠ signalPrefix := by
  revert fixed bits
  decide

/-- A short header is taken for a signal if all its bits are 0. -/
theorem Header.short_byte_eq_iff (fixed spin : Bool) (masked : BitVec 5) :
    (Header.short fixed spin masked).byte = signalPrefix ↔
      fixed = false ∧ spin = false ∧ masked = 0 := by
  revert fixed spin masked
  decide

/-- The one header whose byte is the mark of a signal. -/
theorem Header.byte_eq_signalPrefix_iff (h : Header) :
    h.byte = signalPrefix ↔ h = .short false false 0 := by
  cases h with
  | long fixed bits => exact ⟨fun hb => absurd hb (long_byte_ne fixed bits), nofun⟩
  | short fixed spin masked => rw [short_byte_eq_iff, Header.short.injEq]

/-! ## Handling -/

namespace Sent

/-- What the datagram has to be passed to: a packet to noq, a signal to the
    sessions. -/
def handled : Sent → Handled
  | noq packet => .datagram packet.bytes
  | publish json => .signal json

/-- A QUIC packet with the mark of a signal: a short header with the fixed bit
    greased, the spin bit 0, and protected bits that came out 0. -/
def Marked : Sent → Prop
  | noq packet => packet.header = .short false false 0
  | publish _ => False

/-- A datagram is passed to what it has to be, unless it is a packet with the mark. -/
theorem dispatch_bytes (sent : Sent) : dispatch sent.bytes = sent.handled ↔ ¬sent.Marked := by
  cases sent with
  | publish json => exact ⟨fun _ h => h, fun _ => rfl⟩
  | noq packet =>
    rw [Marked, ← Header.byte_eq_signalPrefix_iff]
    by_cases hb : packet.header.byte = signalPrefix
    · have hsignal : isSignal (noq packet).bytes = true := by
        rw [isSignal, bytes, Packet.bytes, hb]
        rfl
      rw [dispatch, if_pos hsignal]
      exact ⟨nofun, fun h => absurd hb h⟩
    · have hdatagram : isSignal (noq packet).bytes ≠ true := by
        rw [isSignal, bytes, Packet.bytes, List.head?_cons]
        simpa using hb
      rw [dispatch, if_neg hdatagram]
      exact ⟨fun _ => hb, fun _ => rfl⟩

end Sent

/-- A datagram arrived under the identity of its sender, and was passed to what it
    has to be. -/
structure Delivery.Exact (d : Delivery) : Prop where
  source : d.source = d.sender
  handled : d.handled = d.sent.handled

section Network

variable {ι : Type*} [DecidableEq ι] {id : ι → EndpointId} {relay : Relay} {n : Net ι}
  {d : Delivery}

omit [DecidableEq ι] in
/-- A datagram is handled as what it is, unless it is a packet with the mark. -/
theorem Net.Inv.exact_iff {config : EndpointConfig} (h : n.Inv config) (hd : d ∈ n.log) :
    d.Exact ↔ ¬d.sent.Marked := by
  obtain ⟨-, hsource, hhandled⟩ := h.delivered d hd
  rw [← Sent.dispatch_bytes, ← hhandled]
  exact ⟨Delivery.Exact.handled, fun h => ⟨hsource, h⟩⟩

/-- If the fixed bit is not greased, every datagram is handled as what it is. -/
theorem exact_of_not_grease {config : EndpointConfig} (hc : config.greaseQuicBit = false)
    (hn : (network id relay config).Reachable n) (hd : d ∈ n.log) : d.Exact := by
  have hi := Net.Inv.reachable hn
  rw [hi.exact_iff hd]
  intro hmarked
  have hvalid := (hi.delivered d hd).1
  cases hs : d.sent with
  | publish json =>
    rw [hs] at hmarked
    exact hmarked
  | noq packet =>
    rw [hs] at hmarked hvalid
    rcases hvalid with hfixed | hgrease
    · rw [show packet.header = _ from hmarked] at hfixed
      cases hfixed
    · rw [hc] at hgrease
      cases hgrease

/-- In every run of a network of endpoints that `bind` built, a datagram that
    arrives is handled as what it is exactly if it is not a QUIC packet with the
    mark of a signal. -/
theorem exact_iff_of_reachable (hn : (network id relay .bind).Reachable n) (hd : d ∈ n.log) :
    d.Exact ↔ ¬d.sent.Marked :=
  (Net.Inv.reachable hn).exact_iff hd

end Network

/-! ## A run -/

/-- The identities of two endpoints. -/
def pairId : Bool → EndpointId
  | false => Vector.replicate 32 7
  | true => Vector.replicate 32 8

/-- A network of two endpoints. -/
def Net.pair (a : Sys) (outA : List Sent) (b : Sys) (outB : List Sent) (flight : List Carried)
    (log : List Delivery) : Net Bool where
  endpoints := fun i => bif i then b else a
  outbox := fun i => bif i then outB else outA
  flight := flight
  log := log

section Pair

variable {a b s : Sys} {outA outB out : List Sent} {flight : List Carried} {log : List Delivery}

theorem Net.pair_set_false : (pair a outA b outB flight log).set false s out =
    pair s out b outB flight log := by
  simp only [pair, set, Net.mk.injEq, and_self, and_true]
  constructor <;> funext i <;> cases i <;> rfl

theorem Net.pair_set_true : (pair a outA b outB flight log).set true s out =
    pair a outA s out flight log := by
  simp only [pair, set, Net.mk.injEq, and_self, and_true]
  constructor <;> funext i <;> cases i <;> rfl

/-- The network of the two endpoints. -/
def pairNetwork : System (Net Bool) := network pairId .stock .bind

theorem Net.pair_still_false (h : (endpoint.restrict Sys.Still).Leads a s) :
    pairNetwork.Leads (pair a outA b outB flight log) (pair s outA b outB flight log) := by
  have hleads : pairNetwork.Leads (pair a outA b outB flight log) _ := leads_of_still (i := false) h
  rwa [pair_set_false] at hleads

theorem Net.pair_still_true (h : (endpoint.restrict Sys.Still).Leads b s) :
    pairNetwork.Leads (pair a outA b outB flight log) (pair a outA s outB flight log) := by
  have hleads : pairNetwork.Leads (pair a outA b outB flight log) _ := leads_of_still (i := true) h
  rwa [pair_set_true] at hleads

end Pair

/-- The packets of a handshake, and a packet of application data with the mark of
    a signal. -/
def Packet.initial : Packet := ⟨.long true 0, List.replicate 20 1⟩
def Packet.handshake : Packet := ⟨.long true 0x20, List.replicate 20 1⟩
def Packet.marked : Packet := ⟨.short false false 0, List.replicate 20 1⟩

/-- The dialer, once its initial packet is sent. -/
def Sys.calling : Sys :=
  { Sys.dialed with
    st := { Sys.dialed.st with waiters := [] }
    pump := { Sys.dialed.pump with pc := .polling } }

/-- The endpoint that it dials, once the packet has arrived. -/
def Sys.called : Sys :=
  let s := Sys.idle (.relayOnly "https://home.example") true 0
  let peer := pairId true
  { s with
    st := { s.st with
      conns := AList.insert 0 (.new (.new 0 (.relay peer) (docPrefixAddr 0x77 1)) (some peer)
        true 0) ∅
      nextConnEpoch := 1
      insertions := [⟨0, 0, 0⟩]
      nextHost := 1
      peerToAddr := AList.insert peer (docPrefixAddr 0x77 1) ∅
      addrToPeer := AList.insert (docPrefixAddr 0x77 1) peer ∅
      routes := AList.insert (docPrefixAddr 0x77 1) (.relay homeRelay) ∅ }
    pump := { s.pump with pc := .top } }

/-- The initial packet in flight, and its arrival. -/
def Carried.initial : Carried :=
  ⟨pairId true, .noq .initial, encodeClientDatagram (pairId false) Packet.initial.bytes⟩
def Delivery.initial : Delivery :=
  ⟨pairId true, .noq .initial, pairId true, .datagram Packet.initial.bytes⟩

/-- One endpoint dials the other: its initial packet is in flight. -/
theorem initial_sent : pairNetwork.Reachable (Net.pair
    (Sys.idle (.relayOnly "https://home.example") true 0) [] Sys.calling [] [.initial] []) := by
  let bound := Sys.bound (.relayOnly "https://home.example") 0
    (State.bound true "https://home.example")
  have hstart : pairNetwork.Reachable (Net.pair bound [] bound [] [] []) :=
    .init ⟨fun i => ⟨.relayOnly "https://home.example", true, 0, _, homeRelay, rfl,
      by cases i <;> rfl⟩, fun i => by cases i <;> rfl, rfl, rfl⟩
  have hidle := idle_leads (.relayOnly "https://home.example") true 0
  have hdialed := (hstart.leads (Net.pair_still_false hidle)).leads
    (Net.pair_still_true (hidle.trans dialed_leads))
  -- The pump of the dialer polls the packet, and sends it.
  have hqueued := hdialed.step (.transmit (i := true) (@PumpStep.drain Sys.dialed
    (fun _ => ⟨[⟨0, [], [(docPrefixAddr 0x77 1, Packet.initial.bytes)]⟩], false⟩) _ _ rfl rfl)
    (List.forall_mem_singleton.2 ⟨.initial, rfl, .inl rfl⟩) rfl)
  rw [Net.pair_set_true] at hqueued
  have hsent := hqueued.step (.send (i := true) (@PumpStep.relaySend _ homeRelay (pairId false)
    Packet.initial.bytes [] ⟨0⟩ rfl rfl rfl) rfl rfl rfl)
  rw [Net.pair_set_true] at hsent
  have hflushed := hsent.leads (Net.pair_still_true (.single
    ⟨.pump (.relaySent rfl rfl), nofun, rfl, nofun⟩))
  exact hflushed.leads (Net.pair_still_true (select_leads rfl rfl rfl rfl rfl rfl))

/-- A datagram in flight arrives at its destination. -/
theorem pair_arrives {n : Net Bool} (hn : pairNetwork.Reachable n) {i : Bool}
    {source : EndpointId} {sent : Sent} {payload : Bytes}
    (hc : ⟨source, sent, encodeClientDatagram (pairId i) payload⟩ ∈ n.flight)
    (hpc : (n.endpoints i).pump.pc.inSelect = true) (hrun : (n.endpoints i).running = none)
    {key : RelayKey} {conn : RelayConn} (hmem : (key, conn) ∈ (n.endpoints i).pump.relayRecvs)
    {event : DatagramEvent} {s : Sys}
    (hrecv : (n.endpoints i).receive key conn ⟨source, payload⟩ event = .ok s)
    (hkeep : s.st.relayPayloads = (n.endpoints i).st.relayPayloads) :
    pairNetwork.Reachable { n.set i s (n.outbox i) with
      log := n.log ++ [⟨source, sent, source, dispatch payload⟩] } := by
  have hforward : (pairId i, relayDatagramFrame source 0 payload) ∈
      Relay.stock.forward source (encodeClientDatagram (pairId i) payload) := by
    rw [show Relay.stock.forward = Relay.forwardOnce from rfl,
      Relay.forwardOnce_encodeClientDatagram]
    exact List.mem_cons_self
  have hreceived : ⟨source, payload⟩ ∈
      receivedDatagrams (relayDatagramFrame source 0 payload) := by
    rw [receivedDatagrams_relayDatagramFrame]
    exact List.mem_cons_self
  have hstep := hn.step (.deliver hc hforward hreceived hpc hrun hmem hrecv
    (List.forall_mem_nil _) (by rw [hkeep, List.map_nil, List.append_nil]))
  rwa [List.append_nil] at hstep

/-- The initial packet arrives. -/
theorem initial_arrived : pairNetwork.Reachable
    (Net.pair Sys.called [] Sys.calling [] [.initial] [.initial]) := by
  have harrived := @pair_arrives _ initial_sent false _ _ _ List.mem_cons_self rfl rfl homeRelay ⟨0⟩
    List.mem_cons_self (.newConnection [] (.ok 0)) Sys.called rfl rfl
  rwa [Net.pair_set_false] at harrived

/-- The initial packet of a dial is handled as a packet. -/
theorem exact_iff_initial : ∃ (n : Net Bool) (d : Delivery), d ∈ n.log ∧
    d.sent = .noq .initial ∧ (d.Exact ↔ ¬d.sent.Marked) :=
  ⟨Net.pair Sys.called [] Sys.calling [] [.initial] [.initial], .initial, List.mem_cons_self, rfl,
    exact_iff_of_reachable initial_arrived List.mem_cons_self⟩

/-- The endpoint that was dialed answers with its handshake and a first packet of
    application data, which has the mark: the dialer takes it for a signal. -/
theorem not_exact_marked : ∃ (n : Net Bool) (d : Delivery),
    (network pairId .stock .bind).Reachable n ∧ d ∈ n.log ∧ d.sent = .noq .marked ∧
      d.handled = .signal Packet.marked.rest ∧ ¬d.Exact := by
  have hqueued := initial_arrived.step (.transmit (i := false) (@PumpStep.drain Sys.called
    (fun _ => ⟨[⟨0, [], [(docPrefixAddr 0x77 1, Packet.handshake.bytes),
      (docPrefixAddr 0x77 1, Packet.marked.bytes)]⟩], false⟩) _ _ rfl rfl)
    (List.forall_mem_cons.2 ⟨⟨.handshake, rfl, .inl rfl⟩,
      List.forall_mem_singleton.2 ⟨.marked, rfl, .inr rfl⟩⟩) rfl)
  rw [Net.pair_set_false] at hqueued
  have hfirst := hqueued.step (.send (i := false) (@PumpStep.relaySend _ homeRelay (pairId true)
    Packet.handshake.bytes [(homeRelay, pairId true, Packet.marked.bytes)] ⟨0⟩ rfl rfl rfl)
    rfl rfl rfl)
  rw [Net.pair_set_false] at hfirst
  have hflushed := hfirst.leads (Net.pair_still_false (.single
    ⟨.pump (.relaySent rfl rfl), nofun, rfl, nofun⟩))
  have hsecond := hflushed.step (.send (i := false) (@PumpStep.relaySend _ homeRelay (pairId true)
    Packet.marked.bytes [] ⟨0⟩ rfl rfl rfl) rfl rfl rfl)
  rw [Net.pair_set_false] at hsecond
  have harrived := @pair_arrives _ hsecond true _ _ _
    (List.mem_cons_of_mem _ (List.mem_cons_of_mem _ List.mem_cons_self)) rfl rfl homeRelay ⟨0⟩
    List.mem_cons_self .ignored _ rfl rfl
  refine ⟨_, _, harrived, List.mem_cons_of_mem _ List.mem_cons_self, rfl, rfl, fun h => ?_⟩
  cases h.handled

end IrohEndpoint
