import IrohEndpoint.Lib.Except
import IrohEndpoint.System.Basic

/-!
# What the operations change

For each operation of the shared state that has several outcomes, one lemma
that lists them (`_cases`, or `_eq` where there is one), and for those that
several groups of fields depend on, one equation that says what is left alone
(`_frame`): the state after it is the state before it, with the listed fields
changed.
-/

namespace IrohEndpoint

/-- A counter that does not overflow is incremented. -/
theorem bump_eq_ok {w n m : ℕ} : bump w n = .ok m ↔ n + 1 < 2 ^ w ∧ m = n + 1 := by
  rw [bump]
  split <;> rename_i h
  · exact ⟨fun hm => ⟨h, (Except.ok.inj hm).symm⟩, fun hm => by rw [hm.2]⟩
  · exact ⟨nofun, fun hm => absurd hm.1 h⟩

namespace State

variable {s s' : State}

/-! ## Signaling slots -/

/-- A session may begin if the slot of its peer is free, and claims it. -/
theorem beginSignaling_eq {peer : EndpointId} {relay : RelayKey}
    (h : s.beginSignaling peer relay = .ok s') :
    s.signaling.lookup peer = none ∧
      s' = { s with signaling := s.signaling.insert peer relay } := by
  rw [beginSignaling] at h
  split at h <;> rename_i hl <;> cases h
  exact ⟨hl, rfl⟩

/-! ## Standins -/

/-- The standin of a peer is the one it has, or a fresh one. -/
theorem addrForPeer_cases {peer : EndpointId} {via : RelayKey} {addr : SocketAddr}
    (h : s.addrForPeer peer via = .ok (s', addr)) :
    (s' = s ∧ s.peerToAddr.lookup peer = some addr) ∨
      (s.peerToAddr.lookup peer = none ∧ s.nextHost + 1 < 2 ^ 32 ∧
        addr = docPrefixAddr 0x77 (s.nextHost + 1) ∧
        s' = { s with
          nextHost := s.nextHost + 1
          peerToAddr := s.peerToAddr.insert peer addr
          addrToPeer := s.addrToPeer.insert addr peer
          routes := s.routes.insert addr (.relay via) }) := by
  rw [addrForPeer] at h
  split at h <;> rename_i hp
  · cases h
    exact .inl ⟨rfl, hp⟩
  · obtain ⟨n, hn, h⟩ := Except.bind_eq_ok.1 h
    obtain ⟨hlt, rfl⟩ := bump_eq_ok.1 hn
    cases h
    exact .inr ⟨hp, hlt, rfl, rfl⟩

/-- Only the standins and their routes change. -/
theorem addrForPeer_frame {peer : EndpointId} {via : RelayKey} {addr : SocketAddr}
    (h : s.addrForPeer peer via = .ok (s', addr)) :
    s' = { s with
      nextHost := s'.nextHost
      peerToAddr := s'.peerToAddr
      addrToPeer := s'.addrToPeer
      routes := s'.routes } := by
  rcases addrForPeer_cases h with ⟨rfl, -⟩ | ⟨-, -, -, rfl⟩ <;> rfl

/-- A dial goes to the direct address, or to the peer's standin, whose route it
    may set to the relay it goes through. -/
theorem dialAddr_cases {peer : EndpointId} {direct : Option SocketAddr} {key : RelayKey}
    {addr : SocketAddr} (h : s.dialAddr peer direct key = .ok (s', addr)) :
    s' = s ∨ ∃ s₁, s.addrForPeer peer key = .ok (s₁, addr) ∧
      (s' = s₁ ∨ ∃ key', s₁.routes.lookup addr = some (.relay key') ∧
        s' = { s₁ with routes := s₁.routes.insert addr (.relay key) }) := by
  unfold dialAddr at h
  split at h
  · cases h
    exact .inl rfl
  · obtain ⟨⟨s₁, standin⟩, h₁, h⟩ := Except.bind_eq_ok.1 h
    dsimp only at h
    split at h <;> rename_i hr
    · cases h
      exact .inr ⟨s₁, h₁, .inr ⟨_, hr, rfl⟩⟩
    · cases h
      exact .inr ⟨_, h₁, .inl rfl⟩

/-- Only the standins and their routes change. -/
theorem dialAddr_frame {peer : EndpointId} {direct : Option SocketAddr} {key : RelayKey}
    {addr : SocketAddr} (h : s.dialAddr peer direct key = .ok (s', addr)) :
    s' = { s with
      nextHost := s'.nextHost
      peerToAddr := s'.peerToAddr
      addrToPeer := s'.addrToPeer
      routes := s'.routes } := by
  rcases dialAddr_cases h with rfl | ⟨s₁, h₁, rfl | ⟨_, -, rfl⟩⟩
  · rfl
  · exact addrForPeer_frame h₁
  · rw [addrForPeer_frame h₁]

/-! ## Relays and channels -/

/-- A registered relay takes the next pool key. -/
theorem registerRelay_eq {url : String} {conn : RelayConn} {key : RelayKey}
    (h : s.registerRelay url conn = .ok (s', key)) :
    s.nextRelayKey + 1 < 2 ^ 32 ∧ key = s.nextRelayKey ∧
      s' = kickPump { s with
        nextRelayKey := s.nextRelayKey + 1
        relayPool := s.relayPool.insert s.nextRelayKey conn
        relayKeys := s.relayKeys.insert (normalizeRelayUrl url) s.nextRelayKey
        newRelays := s.newRelays ++ [(s.nextRelayKey, conn)] } := by
  obtain ⟨n, hn, h⟩ := Except.bind_eq_ok.1 h
  obtain ⟨hlt, rfl⟩ := bump_eq_ok.1 hn
  cases h
  exact ⟨hlt, rfl, rfl⟩

/-- A closing endpoint refuses a channel. Else it takes the next id, and the
    peer's route. -/
theorem registerChannel_cases {peer : EndpointId} {wire : ChannelWire}
    {result : Except Error Unit} (h : s.registerChannel peer wire = .ok (s', result)) :
    (s.closed = true ∧ s' = s.closeWire wire) ∨
      (s.closed = false ∧ s.nextChannelId + 1 < 2 ^ 32 ∧ ∃ s₁ addr,
        State.addrForPeer { s with
          nextChannelId := s.nextChannelId + 1
          channels := s.channels.insert (s.nextChannelId + 1)
            ⟨wire, peer, (s.signalingRelay peer).getD homeRelay⟩
          newChannels := s.newChannels ++ [(s.nextChannelId + 1, wire)] } peer
          ((s.signalingRelay peer).getD homeRelay) = .ok (s₁, addr) ∧
        s' = kickPump { s₁ with
          routes := s₁.routes.insert addr (.channel (s.nextChannelId + 1)) }) := by
  rw [registerChannel] at h
  split at h <;> rename_i hc
  · cases h
    exact .inl ⟨hc, rfl⟩
  · obtain ⟨n, hn, h⟩ := Except.bind_eq_ok.1 h
    obtain ⟨hlt, rfl⟩ := bump_eq_ok.1 hn
    obtain ⟨⟨s₁, addr⟩, h₁, h⟩ := Except.bind_eq_ok.1 h
    cases h
    exact .inr ⟨by simpa using hc, hlt, s₁, addr, h₁, rfl⟩

/-- Only the channels, the standins, the closed wires and the pump's kick
    change. -/
theorem registerChannel_frame {peer : EndpointId} {wire : ChannelWire}
    {result : Except Error Unit} (h : s.registerChannel peer wire = .ok (s', result)) :
    s' = { s with
      nextHost := s'.nextHost
      peerToAddr := s'.peerToAddr
      addrToPeer := s'.addrToPeer
      routes := s'.routes
      channels := s'.channels
      newChannels := s'.newChannels
      nextChannelId := s'.nextChannelId
      closedWires := s'.closedWires
      pumpKicked := s'.pumpKicked
      pumpWaker := s'.pumpWaker } := by
  rcases registerChannel_cases h with ⟨-, rfl⟩ | ⟨-, -, s₁, addr, h₁, rfl⟩
  · rfl
  · rw [addrForPeer_frame h₁]
    rfl

/-- A retired channel leaves the table. -/
theorem retireChannel_frame (s : State) (id : ChannelId) :
    s.retireChannel id =
      { s with channels := s.channels.erase id, routes := (s.retireChannel id).routes } := by
  rw [retireChannel]
  split
  · rename_i hc
    rw [Table.erase_of_lookup_none hc]
  · dsimp only
    split
    · rfl
    · split <;> rfl

/-! ## Datagrams -/

/-- Only the queues of outbound datagrams change. -/
theorem pushResponse_frame (addr : SocketAddr) (source : Option EndpointId) (payload : Bytes) :
    s.pushResponse addr source payload = { s with
      relayOutbound := (s.pushResponse addr source payload).relayOutbound
      udpOutbound := (s.pushResponse addr source payload).udpOutbound
      channelOutbound := (s.pushResponse addr source payload).channelOutbound } := by
  unfold pushResponse
  split <;> rfl

/-- A connection is inserted in a free slot, with the next stamp. -/
theorem insertConn_eq {handle : ConnectionHandle} {origin : Origin} {remote : SocketAddr}
    {expectedPeer : Option EndpointId} {acceptedSide : Bool} {epoch : ℕ}
    (h : s.insertConn handle origin remote expectedPeer acceptedSide = .ok (s', epoch)) :
    (∀ e, s.conns.lookup handle = some e → e.drained = true) ∧ s.nextConnEpoch + 1 < 2 ^ 64 ∧
      epoch = s.nextConnEpoch ∧
      s' = { s with
        nextConnEpoch := s.nextConnEpoch + 1
        insertions := s.insertions ++ [⟨handle, s.nextConnEpoch, s.insertions.length⟩]
        conns := s.conns.insert handle
          (.new (.new s.insertions.length origin remote) expectedPeer acceptedSide
            s.nextConnEpoch) } := by
  obtain ⟨_, hclaim, h⟩ := Except.bind_eq_ok.1 h
  obtain ⟨n, hn, h⟩ := Except.bind_eq_ok.1 h
  obtain ⟨hlt, rfl⟩ := bump_eq_ok.1 hn
  cases h
  refine ⟨fun e he => ?_, hlt, rfl, rfl⟩
  rw [claimHandle, he] at hclaim
  dsimp only at hclaim
  split at hclaim
  · assumption
  · cases hclaim

/-- A datagram changes nothing, is answered, or makes a connection. -/
theorem handleDatagram_cases {addr : SocketAddr} {source : Option EndpointId} {origin : Origin}
    {event : DatagramEvent} (h : s.handleDatagram addr source origin event = .ok s') :
    s' = s ∨ (∃ packet, s' = s.pushResponse addr source packet) ∨
      ∃ handle epoch, s.closed = false ∧
        s.insertConn handle origin addr source true = .ok (s', epoch) := by
  cases event with
  | connectionEvent _ => exact .inl (Except.ok.inj h).symm
  | ignored => exact .inl (Except.ok.inj h).symm
  | response packet => exact .inr (.inl ⟨packet, (Except.ok.inj h).symm⟩)
  | newConnection refusal accepted =>
    simp only [handleDatagram] at h
    split at h
    · exact .inl (Except.ok.inj h).symm
    · rename_i hc
      split at h
      · exact .inr (.inl ⟨refusal, (Except.ok.inj h).symm⟩)
      · split at h
        · obtain ⟨⟨s₁, epoch⟩, h₁, h⟩ := Except.bind_eq_ok.1 h
          cases h
          exact .inr (.inr ⟨_, epoch, by simpa using hc, h₁⟩)
        · exact .inr (.inl ⟨_, (Except.ok.inj h).symm⟩)
        · exact .inl (Except.ok.inj h).symm

/-- Only the connections and the queues of outbound datagrams change. -/
theorem handleDatagram_frame {addr : SocketAddr} {source : Option EndpointId} {origin : Origin}
    {event : DatagramEvent} (h : s.handleDatagram addr source origin event = .ok s') :
    s' = { s with
      conns := s'.conns
      nextConnEpoch := s'.nextConnEpoch
      insertions := s'.insertions
      relayOutbound := s'.relayOutbound
      udpOutbound := s'.udpOutbound
      channelOutbound := s'.channelOutbound } := by
  rcases handleDatagram_cases h with rfl | ⟨packet, rfl⟩ | ⟨_, _, -, h⟩
  · rfl
  · rw [pushResponse_frame]
  · rw [(insertConn_eq h).2.2.2]

/-- A relay datagram is fed to noq under the standin of its source. -/
theorem handleRelayDatagram_eq {via : RelayKey} {source : EndpointId} {event : DatagramEvent}
    (h : s.handleRelayDatagram via source event = .ok s') :
    ∃ s₁ addr, s.addrForPeer source via = .ok (s₁, addr) ∧
      s₁.handleDatagram addr (some source) (.relay source) event = .ok s' := by
  obtain ⟨⟨s₁, addr⟩, h₁, h⟩ := Except.bind_eq_ok.1 h
  exact ⟨s₁, addr, h₁, h⟩

/-- A datagram of a channel is fed to noq under the standin of the channel's
    peer, if the channel is not retired. -/
theorem handleChannelDatagram_cases {id : ChannelId} {event : DatagramEvent}
    (h : s.handleChannelDatagram id event = .ok s') :
    (s.channels.lookup id = none ∧ s' = s) ∨ ∃ entry s₁ addr, s.channels.lookup id = some entry ∧
      s.addrForPeer entry.peer entry.fallbackRelay = .ok (s₁, addr) ∧
      s₁.handleDatagram addr (some entry.peer) (.channel id entry.peer) event = .ok s' := by
  rw [handleChannelDatagram] at h
  split at h <;> rename_i hc
  · exact .inl ⟨hc, (Except.ok.inj h).symm⟩
  · obtain ⟨⟨s₁, addr⟩, h₁, h⟩ := Except.bind_eq_ok.1 h
    exact .inr ⟨_, s₁, addr, hc, h₁, h⟩

/-- A datagram from a relay concerns the connections, the standins and the queues. -/
theorem handleRelayDatagram_frame {via : RelayKey} {source : EndpointId} {event : DatagramEvent}
    (h : s.handleRelayDatagram via source event = .ok s') :
    s' = { s with
      conns := s'.conns
      nextConnEpoch := s'.nextConnEpoch
      insertions := s'.insertions
      nextHost := s'.nextHost
      peerToAddr := s'.peerToAddr
      addrToPeer := s'.addrToPeer
      routes := s'.routes
      relayOutbound := s'.relayOutbound
      udpOutbound := s'.udpOutbound
      channelOutbound := s'.channelOutbound } := by
  obtain ⟨s₁, addr, h₁, h₂⟩ := handleRelayDatagram_eq h
  rw [handleDatagram_frame h₂, addrForPeer_frame h₁]

/-- So does a datagram from a channel. -/
theorem handleChannelDatagram_frame {id : ChannelId} {event : DatagramEvent}
    (h : s.handleChannelDatagram id event = .ok s') :
    s' = { s with
      conns := s'.conns
      nextConnEpoch := s'.nextConnEpoch
      insertions := s'.insertions
      nextHost := s'.nextHost
      peerToAddr := s'.peerToAddr
      addrToPeer := s'.addrToPeer
      routes := s'.routes
      relayOutbound := s'.relayOutbound
      udpOutbound := s'.udpOutbound
      channelOutbound := s'.channelOutbound } := by
  rcases handleChannelDatagram_cases h with ⟨-, rfl⟩ | ⟨entry, s₁, addr, -, h₁, h₂⟩
  · rfl
  · rw [handleDatagram_frame h₂, addrForPeer_frame h₁]

/-! ## Draining -/

/-- `Connected` surfaces a connection with the expected key, and refuses one with
    another key. -/
theorem onConnected_cases (entry : ConnEntry) (handle : ConnectionHandle) (session : CryptoSession)
    (queue : List (ConnectionHandle × ℕ)) :
    (∃ k alpn, session.peerIdentity = some k ∧ (∀ p, entry.expectedPeer = some p → k = p) ∧
      onConnected entry handle session queue =
        ({ entry with alpn := alpn, peer := some k, connected := true },
          queue ++ if entry.acceptedSide then [(handle, entry.epoch)] else [])) ∨
      ∃ alpn, onConnected entry handle session queue =
        (onConnected.mismatch { entry with alpn := alpn }, queue) := by
  have hqueue : (if entry.acceptedSide then queue ++ [(handle, entry.epoch)] else queue) =
      queue ++ if entry.acceptedSide then [(handle, entry.epoch)] else [] := by
    split
    · rfl
    · rw [List.append_nil]
  have hexp : ∀ {k}, entry.expectedPeer = none ∨ entry.expectedPeer = some k →
      ∀ p, entry.expectedPeer = some p → k = p := by
    rintro k (hn | hn) p hp <;> rw [hn] at hp <;> cases hp
    rfl
  obtain ⟨handshakeData, peerIdentity⟩ := session
  unfold onConnected
  cases handshakeData <;> cases peerIdentity <;> dsimp only
  · exact .inr ⟨entry.alpn, rfl⟩
  · split <;> rename_i hc
    · exact .inl ⟨_, entry.alpn, rfl, hexp hc, by rw [hqueue]⟩
    · exact .inr ⟨entry.alpn, rfl⟩
  · exact .inr ⟨_, rfl⟩
  · split <;> rename_i hc
    · exact .inl ⟨_, _, rfl, hexp hc, by rw [hqueue]⟩
    · exact .inr ⟨_, rfl⟩

section Drain

variable {R : State → State → Prop} (refl : ∀ s, R s s)
  (trans : ∀ s₁ s₂ s₃, R s₁ s₂ → R s₂ s₃ → R s₁ s₃)
  (event : ∀ handle s e s', pollEvent handle s e = .ok s' → R s s')
  (transmit : ∀ s t s', routeTransmit s t = .ok s' → R s s')
  (drained : ∀ s handle isDrained, R s (markDrained s handle isDrained).1)
include refl trans event transmit

/-- What every event and every transmit respects, the polling of a connection
    respects. -/
theorem drainRounds_rel {handle : ConnectionHandle} {rs : List Round} {s s' : State} {b : Bool}
    (h : drainRounds handle rs s = .ok (s', b)) : R s s' := by
  induction rs generalizing s b with
  | nil =>
    cases h
    exact refl _
  | cons r rs ih =>
    rw [drainRounds] at h
    split at h
    · obtain ⟨s₂, h₂, h⟩ := Except.bind_eq_ok.1 h
      obtain ⟨s₁, h₁, h₂⟩ := Except.bind_eq_ok.1 h₂
      obtain ⟨⟨s₃, b₃⟩, h₃, h⟩ := Except.bind_eq_ok.1 h
      cases h
      have hevents := Except.foldlM_rel refl trans (event handle) h₁
      have htransmits := Except.foldlM_rel refl trans transmit h₂
      exact trans _ _ _ (trans _ _ _ hevents htransmits) (ih h₃)
    · cases h
      exact refl _

include drained

/-- What every event and every transmit respects, and the marking of the drained
    connections, `drain` respects. -/
theorem drain_rel {polling : ConnectionHandle → Polling} {s s' : State} {b : Bool}
    (h : s.drain polling = .ok (s', b)) : R s s' := by
  refine Except.foldlM_rel (R := fun a a' : State × Bool => R a.1 a'.1) (fun a => refl a.1)
    (fun _ _ _ => trans _ _ _) (fun acc handle acc' hd => ?_) h
  obtain ⟨⟨s₁, b₁⟩, h₁, hd⟩ := Except.bind_eq_ok.1 hd
  cases hd
  exact trans _ _ _ (drainRounds_rel refl trans event transmit h₁) (drained _ _ _)

end Drain

/-- What polling may change: the connections, the queue of connections to
    accept, and the queues of outbound datagrams. -/
def Polls (s s' : State) : Prop :=
  s' = { s with
    conns := s'.conns
    acceptQueue := s'.acceptQueue
    relayOutbound := s'.relayOutbound
    udpOutbound := s'.udpOutbound
    channelOutbound := s'.channelOutbound }

/-- What two turns of polling change is what polling may change. -/
theorem Polls.trans {s₁ s₂ s₃ : State} (h₁ : Polls s₁ s₂) (h₂ : Polls s₂ s₃) : Polls s₁ s₃ := by
  rw [Polls] at h₁ h₂ ⊢
  rw [h₂, h₁]

/-- An event changes its connection and the queue of connections to accept. -/
theorem pollEvent_polls {handle : ConnectionHandle} {event : Event}
    (h : pollEvent handle s event = .ok s') : Polls s s' := by
  rw [pollEvent] at h
  split at h
  · cases h; rfl
  · split at h <;> cases h
    rfl

/-- A transmit goes to one of the queues. -/
theorem routeTransmit_polls {transmit : SocketAddr × Bytes}
    (h : s.routeTransmit transmit = .ok s') : Polls s s' := by
  rw [routeTransmit] at h
  split at h
  · split at h <;> cases h
    rfl
  · cases h; rfl
  · cases h; rfl

/-- A drained connection is marked in its entry. -/
theorem markDrained_polls (s : State) (handle : ConnectionHandle) (isDrained : Bool) :
    Polls s (s.markDrained handle isDrained).1 := by
  rw [markDrained]
  split
  · rfl
  · split <;> rfl

/-- `drain` changes only the connections and the queues. -/
theorem drain_polls {polling : ConnectionHandle → Polling} {b : Bool}
    (h : s.drain polling = .ok (s', b)) : Polls s s' :=
  drain_rel (R := Polls) (fun _ => rfl) (fun _ _ _ => Polls.trans) (fun _ _ _ _ => pollEvent_polls)
    (fun _ _ _ => routeTransmit_polls) markDrained_polls h

/-- Polling, and then waking the parked operations if `c`, changes no more than that and who is
    parked. -/
theorem Polls.woken (h : Polls s s') (c : Prop) [Decidable c] :
    (if c then s'.wakeWaiters else s') = { s with
      conns := s'.conns
      acceptQueue := s'.acceptQueue
      relayOutbound := s'.relayOutbound
      udpOutbound := s'.udpOutbound
      channelOutbound := s'.channelOutbound
      waiters := if c then [] else s.waiters } := by
  rw [Polls] at h
  split <;> rw [h]
  rfl

/-! ## Calls -/

/-- The lookup of a stamp finds the entry of its slot, if it has the stamp. -/
theorem entryFor_iff {handle : ConnectionHandle} {epoch : ℕ} {e : ConnEntry} :
    s.entryFor handle epoch = some e ↔ s.conns.lookup handle = some e ∧ e.epoch = epoch := by
  rw [entryFor, Option.filter_eq_some_iff, beq_iff_eq]

/-- `accept` takes connections off the queue. -/
theorem acceptCheck_eq {result : Option (Except Error (ConnectionHandle × ℕ))}
    (h : s.acceptCheck = (s', result)) :
    s' = { s with acceptQueue := (s.popCurrent s.acceptQueue).1 } := by
  rw [acceptCheck] at h
  split at h <;> rename_i hp <;> cases h <;> rw [hp]

/-- `open_stream` may kick the pump. -/
theorem openStreamCheck_cases {handle : ConnectionHandle} {epoch : ℕ} {kickedBlocked : Bool}
    {opened : Option StreamId} {result : Option (Except Error StreamId)}
    (h : s.openStreamCheck handle epoch kickedBlocked opened = (s', result)) :
    s' = s ∨ s' = s.kickPump := by
  rw [openStreamCheck] at h
  split at h
  · exact .inl (congrArg Prod.fst h).symm
  · split at h
    · exact .inl (congrArg Prod.fst h).symm
    · exact .inl (congrArg Prod.fst h).symm
    · split at h
      · exact .inl (congrArg Prod.fst h).symm
      · exact .inr (congrArg Prod.fst h).symm

/-- `accept_stream` takes a stream off a queue of its connection. -/
theorem acceptStreamCheck_cases {handle : ConnectionHandle} {epoch : ℕ} {dir : Dir}
    {result : Option (Except Error StreamId)}
    (h : s.acceptStreamCheck handle epoch dir = (s', result)) :
    s' = s ∨ ∃ entry rest, s.entryFor handle epoch = some entry ∧
      s' = { s with conns := s.conns.insert handle (entry.setQueue dir rest) } := by
  rw [acceptStreamCheck] at h
  split at h
  · exact .inl (congrArg Prod.fst h).symm
  · rename_i entry he
    split at h
    · exact .inr ⟨entry, _, he, (congrArg Prod.fst h).symm⟩
    · exact .inl (congrArg Prod.fst h).symm

/-- A close changes the entry it finds, or nothing. -/
theorem closeConnection_cases (s : State) (handle : ConnectionHandle) (epoch code : ℕ)
    (reason : Bytes) :
    (s.closeConnection handle epoch code reason = s ∧
        ∀ e, s.entryFor handle epoch = some e → ¬(e.error = none ∧ e.drained = false)) ∨
      ∃ entry, s.entryFor handle epoch = some entry ∧ entry.error = none ∧
        entry.drained = false ∧
        s.closeConnection handle epoch code reason = kickPump { s with
          conns := s.conns.insert handle { entry with conn := entry.conn.close code reason } } := by
  rw [closeConnection]
  split <;> rename_i he
  · refine .inl ⟨rfl, fun e h => ?_⟩
    rw [he] at h
    cases h
  · rename_i entry
    split <;> rename_i hc
    · rw [Bool.and_eq_true, Option.isNone_iff_eq_none, Bool.not_eq_true'] at hc
      exact .inr ⟨entry, he, hc.1, hc.2, rfl⟩
    · refine .inl ⟨rfl, fun e h => ?_⟩
      rw [he] at h
      cases h
      simpa [Option.isNone_iff_eq_none] using hc

/-- Taking a signal changes the inboxes. -/
theorem nextSignalCheck_frame (s : State) (peer : EndpointId) (started now : Instant) :
    (s.nextSignalCheck peer started now).1 = { s with
      signalInboxes := (s.nextSignalCheck peer started now).1.signalInboxes } := by
  have hpop : (s.popSignalInbox peer).1 = { s with
      signalInboxes := (s.popSignalInbox peer).1.signalInboxes } := by
    rw [popSignalInbox]
    split <;> rfl
  rw [nextSignalCheck]
  split
  · rfl
  · split <;> rename_i h
    all_goals
      rw [h] at hpop
      exact hpop

/-- Looking for a relay may claim its opening. -/
theorem ensureRelay_frame {url : String} {opening : Opening}
    (h : s.ensureRelay url = (s', opening)) : s' = { s with relayOpening := s'.relayOpening } := by
  rw [ensureRelay] at h
  split at h
  · cases h; rfl
  · split at h
    · cases h; rfl
    · split at h <;> cases h <;> rfl

/-- A dialed connection is inserted, and its upgrade requested. -/
theorem dialed_eq {peer : EndpointId} {remote : SocketAddr} {handle : ConnectionHandle}
    {upgradeKey : Option RelayKey} {epoch : ℕ}
    (h : s.dialed peer remote handle upgradeKey = .ok (s', epoch)) :
    ∃ s₁ upgrades, s.insertConn handle (.dialed peer) remote (some peer) false = .ok (s₁, epoch) ∧
      s' = kickPump { s₁ with pendingUpgrades := upgrades } := by
  obtain ⟨⟨s₁, epoch'⟩, h₁, h⟩ := Except.bind_eq_ok.1 h
  cases h
  exact ⟨s₁, _, h₁, rfl⟩

/-- Closing relay connections is recorded. -/
theorem foldl_closeRelay (l : List RelayConn) (s : State) :
    l.foldl closeRelay s = { s with closedRelays := l.reverse ++ s.closedRelays } := by
  induction l generalizing s with
  | nil => rfl
  | cons conn l ih =>
    rw [List.foldl_cons, ih, closeRelay]
    simp

/-- Closing channel wires is recorded. -/
theorem foldl_closeWire (l : List ChannelWire) (s : State) :
    l.foldl closeWire s = { s with closedWires := l.reverse ++ s.closedWires } := by
  induction l generalizing s with
  | nil => rfl
  | cons wire l ih =>
    rw [List.foldl_cons, ih, closeWire]
    simp

end State

namespace Sys

variable {s s' : Sys}

/-! ## The pump -/

/-- What a failing relay may change: the pool, the URLs, what was closed, and
    the redial. -/
def FailsRelays (s s' : Sys) : Prop :=
  s' = { s with
    st := { s.st with
      relayPool := s'.st.relayPool
      relayKeys := s'.st.relayKeys
      closedRelays := s'.st.closedRelays }
    pump := { s.pump with redial := s'.pump.redial, backoff := s'.pump.backoff } }

/-- Several relays may fail. -/
theorem FailsRelays.trans {s₁ s₂ s₃ : Sys} (h₁ : FailsRelays s₁ s₂) (h₂ : FailsRelays s₂ s₃) :
    FailsRelays s₁ s₃ := by
  rw [FailsRelays] at h₁ h₂ ⊢
  rw [h₂, h₁]

/-- The failure of a home connection. -/
theorem failHome_fails (s : Sys) (conn : RelayConn) (random : Option (UInt8 × UInt8)) :
    FailsRelays s (s.failHome conn random) := by
  rw [failHome, State.retireHome]
  split <;> rename_i h <;> split at h <;> cases h <;> rfl

/-- The failure of a foreign relay. -/
theorem failRelay_fails (s : Sys) (key : RelayKey) :
    FailsRelays s { s with st := s.st.failRelay key } := by
  unfold State.failRelay State.retireRelay
  cases s.st.relayPool.lookup key <;> rfl

/-- A failing receive. -/
theorem failReceive_fails (s : Sys) (key : RelayKey) (conn : RelayConn)
    (random : Option (UInt8 × UInt8)) : FailsRelays s (s.failReceive key conn random) := by
  rw [failReceive]
  split
  · rfl
  · split
    · exact s.failHome_fails conn random
    · exact s.failRelay_fails key

/-- The liveness sweep. -/
theorem sweep_fails (s : Sys) (verdict : RelayConn → ProbeStep)
    (random : Option (UInt8 × UInt8)) : FailsRelays s (s.sweep verdict random) := by
  rw [sweep]
  generalize s.st.relayPool.entries = l
  induction l generalizing s with
  | nil => rfl
  | cons entry l ih =>
    refine FailsRelays.trans ?_ (ih (sweepOne verdict random s entry))
    rw [sweepOne]
    split
    · split
      · exact s.failHome_fails entry.2 random
      · exact s.failRelay_fails entry.1
    · rfl
    · rfl

/-- An inbound signal is dropped, filed for the peer's session, or claims the
    peer's slot for a new answerer. -/
theorem handleSignal_cases (s : Sys) (via : RelayKey) (source : EndpointId) (payload : Bytes) :
    s.handleSignal via source payload = s ∨
      (∃ inboxes, s.handleSignal via source payload =
        { s with st := (State.wakeWaiters { s.st with signalInboxes := inboxes }) }) ∨
      ∃ inboxes, s.st.signaling.lookup source = none ∧
        s.handleSignal via source payload = spawnAnswerer { s with
          st := State.wakeWaiters { s.st with
            signaling := s.st.signaling.insert source via
            signalInboxes := inboxes } } source via := by
  rw [handleSignal, State.handleSignal]
  by_cases hc : (!s.st.webrtcEnabled || s.st.closed) = true
  · rw [if_pos hc]
    exact .inl rfl
  · rw [if_neg hc]
    cases s.st.signaling.lookup source with
    | some _ => exact .inr (.inl ⟨_, rfl⟩)
    | none => exact .inr (.inr ⟨_, rfl, rfl⟩)

/-- An inbound signal concerns the signaling slots and inboxes, and the sessions. -/
theorem handleSignal_frame (s : Sys) (via : RelayKey) (source : EndpointId) (payload : Bytes) :
    s.handleSignal via source payload = { s with
      st := { s.st with
        signaling := (s.handleSignal via source payload).st.signaling
        signalInboxes := (s.handleSignal via source payload).st.signalInboxes
        waiters := (s.handleSignal via source payload).st.waiters }
      sessions := (s.handleSignal via source payload).sessions
      nextSession := (s.handleSignal via source payload).nextSession } := by
  rcases s.handleSignal_cases via source payload with h | ⟨_, h⟩ | ⟨_, -, h⟩ <;> rw [h] <;> rfl

/-- Spawning the requested upgrades adds sessions. -/
theorem foldl_spawnUpgrade_frame (l : List (EndpointId × RelayKey)) (s : Sys) :
    l.foldl spawnUpgrade s = { s with
      sessions := (l.foldl spawnUpgrade s).sessions
      nextSession := (l.foldl spawnUpgrade s).nextSession } := by
  induction l generalizing s with
  | nil => rfl
  | cons upgrade l ih =>
    rw [List.foldl_cons, ih]
    rfl

end Sys

end IrohEndpoint
