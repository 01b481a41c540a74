import IrohEndpoint.RelayPool

/-!
# Every live wire has one receive

The pump keeps a set of pending receives. One is armed when a relay or a channel is
registered, and when the home relay is redialed; a receive that resolves with a
datagram is armed again if its connection is still in the pool, or its channel in the
table. So a wire that is in use has one receive, and the receive of a connection that
has left the pool, closed, is dropped once it resolves.

For the relays this is a part of the invariant `RelayPool.Wired`. `ChannelWires` is
the same for the channels. There a receive is dropped together with its channel.
-/

namespace IrohEndpoint

open Transition State

/-! ## The receives of the relays -/

namespace RelayPool

/-- A connection that has left the pool under `key`, or was never there. -/
def Gone (r : RelayPool) (key : RelayKey) (conn : RelayConn) : Prop :=
  conn.id < r.opened ∧ r.stage ≠ .dialed conn ∧ r.pool.lookup key ≠ some conn

/-- What is gone from the pool does not come back, and gets no receive. -/
def Abandons (r r' : RelayPool) : Prop :=
  ∀ key conn, r.Gone key conn →
    r'.Gone key conn ∧ r'.recvs.count (key, conn) ≤ r.recvs.count (key, conn)

/-- The same connections are gone, and no receive is armed. -/
theorem Abandons.of_eq {r r' : RelayPool} (ho : r.opened ≤ r'.opened)
    (hstage : ∀ conn, r'.stage = .dialed conn → r.stage = .dialed conn ∨ r.opened ≤ conn.id)
    (hpool : ∀ key conn, r'.pool.lookup key = some conn → r.pool.lookup key = some conn)
    (hrecvs : r'.recvs ≤ r.recvs) : r.Abandons r' := by
  rintro key conn ⟨hopened, hdialed, hp⟩
  refine ⟨⟨hopened.trans_le ho, fun h => ?_, fun h => hp (hpool key conn h)⟩,
    Multiset.count_le_of_le _ hrecvs⟩
  rcases hstage conn h with h | h
  · exact hdialed h
  · exact absurd hopened h.not_gt

/-- A connection is put in the pool, with a receive: it was not gone. -/
theorem Abandons.insert {r r' : RelayPool} {key : RelayKey} {conn : RelayConn}
    (hnew : ¬(conn.id < r.opened ∧ r.stage ≠ .dialed conn)) (ho : r.opened ≤ r'.opened)
    (hstage : ∀ c, r'.stage = .dialed c → r.stage = .dialed c)
    (hpool : r'.pool = r.pool.insert key conn) (hrecvs : r'.recvs = (key, conn) ::ₘ r.recvs) :
    r.Abandons r' := by
  rintro key' c ⟨hopened, hdialed, hp⟩
  have hne : c ≠ conn := by
    rintro rfl
    exact hnew ⟨hopened, hdialed⟩
  refine ⟨⟨hopened.trans_le ho, fun h => hdialed (hstage c h), ?_⟩, ?_⟩
  · rw [hpool, Table.lookup_insert_eq]
    split
    · exact fun h => hne (Option.some.inj h).symm
    · exact hp
  · rw [hrecvs, Multiset.count_cons_of_ne (by simp [hne])]

/-- Every step abandons what is gone. -/
theorem Step.abandons {r r' : RelayPool} (h : Step r r') : r.Abandons r' := by
  cases h with
  | register => exact .insert (by simp) (Nat.le_succ _) (fun _ => id) rfl rfl
  | reoccupy hstage => exact .insert (by simp [hstage]) (le_refl _) nofun rfl rfl
  | retireHome | retire =>
    exact .of_eq (le_refl _) (fun _ => .inl) (fun _ _ h => (Table.lookup_erase_some.1 h).2)
      (le_refl _)
  | take => exact .of_eq (le_refl _) (fun _ => .inl) (fun _ _ => id) (Multiset.erase_le _ _)
  | dial =>
    refine .of_eq (Nat.le_succ _) (fun conn h => .inr ?_) (fun _ _ => id) (le_refl _)
    cases h
    exact le_refl _
  | drop | tear => exact .of_eq (le_refl _) nofun (fun _ _ => id) (le_refl _)
  | settle _ hle => exact .of_eq (le_refl _) nofun (fun _ _ => id) hle
  | claim | release | close => exact .of_eq (le_refl _) (fun _ => .inl) (fun _ _ => id) (le_refl _)

/-- Every run abandons what is gone. -/
theorem Abandons.leads {r r' : RelayPool} (hr : machine.Reachable r) (h : machine.Leads r r') :
    r.Abandons r' := by
  refine System.Leads.rel (fun r key conn h => ⟨h, le_refl _⟩) ?_ (fun _ _ _ => Step.abandons) hr h
  intro r₁ r₂ r₃ h₁ h₂ key conn h
  obtain ⟨h', hle⟩ := h₁ key conn h
  obtain ⟨h'', hle'⟩ := h₂ key conn h'
  exact ⟨h'', hle'.trans hle⟩

end RelayPool

/-! ## The receives of the channels -/

/-- How far the pump has left its loop. -/
inductive PumpExit
  | looping
  | left
  /-- The channels are closed. -/
  | torn
  /-- The receives have ended too. -/
  | ended

/-- How far the pump has left its loop. -/
def PumpPc.exit : PumpPc → PumpExit
  | leaving | selfWake => .left
  | settling => .torn
  | done => .ended
  | _ => .looping

/-- The channels and their receives. -/
structure ChannelWires where
  channels : Table ChannelId ChannelEntry
  nextId : ChannelId
  /-- The receives of the pump, and those it is to arm. -/
  recvs : Multiset (ChannelId × ChannelWire)
  /-- The wires that were closed, and the number of those opened. -/
  closedWires : List ChannelWire
  opened : ℕ
  exit : PumpExit
  closed : Bool

/-- The channels of the endpoint. -/
def Sys.wires (s : Sys) : ChannelWires where
  channels := s.st.channels
  nextId := s.st.nextChannelId
  recvs := ↑(s.pump.channelRecvs ++ s.st.newChannels)
  closedWires := s.st.closedWires
  opened := s.channelWires
  exit := s.pump.pc.exit
  closed := s.st.closed

namespace ChannelWires

/-- What may happen to the channels. -/
inductive Step : ChannelWires → ChannelWires → Prop
  /-- A session registers a channel, -/
  | register {c : ChannelWires} {peer : EndpointId} {fallbackRelay : RelayKey} :
      c.closed = false →
      Step c { c with
        channels := c.channels.insert (c.nextId + 1) ⟨⟨c.opened⟩, peer, fallbackRelay⟩
        nextId := c.nextId + 1
        recvs := (c.nextId + 1, ⟨c.opened⟩) ::ₘ c.recvs
        opened := c.opened + 1 }
  /-- which a closed endpoint refuses. -/
  | refuse {c : ChannelWires} :
      c.closed = true →
      Step c { c with closedWires := ⟨c.opened⟩ :: c.closedWires, opened := c.opened + 1 }
  /-- A receive fails, and its channel is retired. -/
  | retire {c : ChannelWires} {id : ChannelId} {wire : ChannelWire} :
      (id, wire) ∈ c.recvs →
      Step c { c with channels := c.channels.erase id, recvs := c.recvs.erase (id, wire) }
  | close {c : ChannelWires} : Step c { c with closed := true }
  /-- The pump leaves its loop, closes the channels, and its receives end. -/
  | leave {c : ChannelWires} :
      c.exit = .looping → c.closed = true → Step c { c with exit := .left }
  | tear {c : ChannelWires} :
      c.exit = .left →
      Step c { c with
        closedWires := (c.channels.values.map ChannelEntry.wire).reverse ++ c.closedWires
        exit := .torn }
  | settle {c : ChannelWires} {recvs : Multiset (ChannelId × ChannelWire)} :
      c.exit = .torn → recvs ≤ c.recvs → Step c { c with recvs := recvs, exit := .ended }

/-- The machine starts without channels. -/
def machine : System ChannelWires where
  init := {⟨∅, 0, 0, [], 0, .looping, false⟩}
  step := Step

/-- The invariant of the channels. -/
structure Inv (c : ChannelWires) : Prop where
  known : ∀ id entry, c.channels.lookup id = some entry → id ≤ c.nextId
  /-- The receives are those of the channels, until the pump ends. -/
  nodup : c.recvs.Nodup
  belongs : ∀ id wire, (id, wire) ∈ c.recvs →
    ∃ entry, c.channels.lookup id = some entry ∧ entry.wire = wire
  armed : (∀ id entry, c.channels.lookup id = some entry → (id, entry.wire) ∈ c.recvs) ∨
    c.exit = .ended
  /-- The pump leaves its loop once the endpoint is closed, and closes the channels. -/
  left : c.closed = true ∨ c.exit = .looping
  torn : c.exit = .torn ∨ c.exit = .ended → ∀ id entry, c.channels.lookup id = some entry →
    entry.wire ∈ c.closedWires

/-- Every step keeps the invariant. -/
theorem Inv.step {c c' : ChannelWires} (h : c.Inv) (hst : Step c c') : c'.Inv := by
  cases hst with
  | register hopen =>
    -- The pump is in its loop: it leaves it only once the endpoint is closed.
    have hlooping := h.left.resolve_left (by rw [hopen]; exact Bool.false_ne_true)
    have hnew : ∀ {wire}, (c.nextId + 1, wire) ∉ c.recvs := by
      intro wire hmem
      obtain ⟨e, he, -⟩ := h.belongs _ wire hmem
      exact absurd (h.known _ e he) (Nat.not_succ_le_self _)
    refine ⟨?_, Multiset.nodup_cons.2 ⟨hnew, h.nodup⟩, ?_, h.armed.imp_left fun ha => ?_, h.left,
      fun ht => ?_⟩
    · intro id e he
      rcases Table.lookup_insert_some.1 he with ⟨hid, -⟩ | ⟨-, he⟩
      · exact hid.le
      · exact Nat.le_succ_of_le (h.known id e he)
    · intro id wire hmem
      rcases Multiset.mem_cons.1 hmem with heq | hmem
      · cases heq
        exact ⟨_, AList.lookup_insert _, rfl⟩
      · refine (h.belongs id wire hmem).imp fun e he => ⟨?_, he.2⟩
        refine Table.lookup_insert_some.2 (.inr ⟨?_, he.1⟩)
        rintro rfl
        exact hnew hmem
    · intro id e he
      rcases Table.lookup_insert_some.1 he with ⟨rfl, rfl⟩ | ⟨-, he⟩
      · exact Multiset.mem_cons_self _ _
      · exact Multiset.mem_cons_of_mem (ha id e he)
    · rw [hlooping] at ht
      simp at ht
  | refuse => exact { h with torn := fun ht id e he => List.mem_cons_of_mem _ (h.torn ht id e he) }
  | @retire id wire hmem =>
    refine ⟨fun id' e he => h.known id' e (Table.lookup_erase_some.1 he).2, h.nodup.erase _, ?_,
      h.armed.imp_left fun ha => ?_, h.left,
      fun ht id' e he => h.torn ht id' e (Table.lookup_erase_some.1 he).2⟩
    · intro id' wire' hmem'
      obtain ⟨hne, hmem'⟩ := (h.nodup.mem_erase_iff).1 hmem'
      refine (h.belongs id' wire' hmem').imp fun e he => ⟨?_, he.2⟩
      refine Table.lookup_erase_some.2 ⟨?_, he.1⟩
      -- A channel has one wire, hence one receive.
      rintro rfl
      obtain ⟨e', he', hw'⟩ := h.belongs id' wire hmem
      cases Option.some.inj (he.1.symm.trans he')
      exact hne (by rw [← he.2, hw'])
    · intro id' e he
      obtain ⟨hne, he⟩ := Table.lookup_erase_some.1 he
      exact (Multiset.mem_erase_of_ne (by simp [hne])).2 (ha id' e he)
  | close => exact { h with left := .inl rfl }
  | leave hexit hc =>
    exact { h with
      armed := .inl (h.armed.resolve_right (by rw [hexit]; nofun))
      left := .inl hc
      torn := by simp }
  | tear hexit =>
    refine { h with armed := ?_, left := ?_, torn := fun _ id e he => ?_ }
    · exact .inl (h.armed.resolve_right (by rw [hexit]; nofun))
    · exact .inl (h.left.resolve_right (by rw [hexit]; nofun))
    · -- All channels that are in the table are closed.
      exact List.mem_append_left _ (List.mem_reverse.2
        (List.mem_map_of_mem (Table.mem_values.2 ⟨id, he⟩)))
  | settle hexit hle =>
    exact ⟨h.known, Multiset.nodup_of_le hle h.nodup,
      fun id wire hmem => h.belongs id wire (Multiset.mem_of_le hle hmem), .inr rfl,
      .inl (h.left.resolve_right (by rw [hexit]; nofun)), fun _ => h.torn (.inl hexit)⟩

/-- The invariant holds in every reachable state of the machine. -/
theorem Inv.reachable {c : ChannelWires} (hr : machine.Reachable c) : c.Inv := by
  refine hr.invariant ?_ fun _ _ _ hst hi => hi.step hst
  rintro _ rfl
  exact ⟨nofun, Multiset.nodup_zero, fun _ _ h => absurd h (Multiset.notMem_zero _), .inl nofun,
    .inr rfl, fun _ => nofun⟩

/-- A channel that was retired stays retired. -/
def Retires (c c' : ChannelWires) : Prop :=
  c.nextId ≤ c'.nextId ∧
    ∀ id ≤ c.nextId, c.channels.lookup id = none → c'.channels.lookup id = none

/-- Every run keeps the channels retired that were. -/
theorem Retires.leads {c c' : ChannelWires} (hr : machine.Reachable c) (h : machine.Leads c c') :
    c.Retires c' := by
  refine System.Leads.rel (fun c => ⟨le_refl _, fun _ _ => id⟩) ?_ ?_ hr h
  · intro c₁ c₂ c₃ h₁ h₂
    exact ⟨h₁.1.trans h₂.1, fun id hle hn => h₂.2 id (hle.trans h₁.1) (h₁.2 id hle hn)⟩
  · intro c₁ c₂ _ hst
    cases hst with
    | register =>
      refine ⟨Nat.le_succ _, fun id hle hn => ?_⟩
      rw [Table.lookup_insert_eq, if_neg (Nat.lt_succ_of_le hle).ne, hn]
    | retire =>
      refine ⟨le_refl _, fun id _ hn => ?_⟩
      rw [Table.lookup_erase_eq, hn, ite_self]
    | _ => exact ⟨le_refl _, fun _ _ => id⟩

end ChannelWires

/-! ## The endpoint refines the machine -/

open ChannelWires

/-- In its select, the pump is in its loop. -/
theorem PumpPc.exit_of_inSelect {pc : PumpPc} (h : pc.inSelect = true) : pc.exit = .looping := by
  cases pc <;> first | rfl | cases h

namespace Sys

variable {s : Sys}

/-- The pump moves on, in its loop or out of it. -/
theorem goto_wires {pc : PumpPc} (h : pc.exit = s.pump.pc.exit) :
    (s.goto pc).wires = s.wires := by
  rw [goto, wires, h]
  rfl

/-- A receive that is taken out is one of the receives. -/
theorem cons_channelRecvs {id : ChannelId} {wire : ChannelWire}
    (h : (id, wire) ∈ s.pump.channelRecvs) :
    s.wires.recvs = (id, wire) ::ₘ ↑(s.pump.channelRecvs.erase (id, wire) ++ s.st.newChannels) :=
  Multiset.coe_eq_coe.2 ((List.perm_cons_erase h).append_right s.st.newChannels)

/-- A receive resolves, and is armed again. -/
theorem takeChannelRecv_wires (hi : s.wires.Inv) {id : ChannelId} {wire : ChannelWire}
    (h : (id, wire) ∈ s.pump.channelRecvs) : (s.takeChannelRecv id wire).wires = s.wires := by
  have hcons := cons_channelRecvs h
  obtain ⟨entry, he, hw⟩ := hi.belongs id wire (hcons ▸ Multiset.mem_cons_self _ _)
  have hperm : (s.pump.channelRecvs.erase (id, wire) ++ [(id, wire)]).Perm s.pump.channelRecvs :=
    (List.perm_append_singleton _ _).trans (List.perm_cons_erase h).symm
  rw [takeChannelRecv, show s.st.channels.lookup id = some entry from he]
  simp only [wires, Option.map_some, Option.toList_some, hw,
    Multiset.coe_eq_coe.2 (hperm.append_right s.st.newChannels)]

/-- A failing relay is no matter of the channels. -/
theorem FailsRelays.goto_wires {s' : Sys} {pc : PumpPc} (h : FailsRelays s s')
    (hpc : pc.exit = s.pump.pc.exit) : (s'.goto pc).wires = s.wires := by
  rw [FailsRelays] at h
  rw [h]
  exact Sys.goto_wires hpc

end Sys

/-- A step of the pump is a run of the machine. -/
theorem PumpStep.wires {s s' : Sys} (hi : s.wires.Inv) (h : PumpStep s s') :
    machine.Leads s.wires s'.wires := by
  have hselect := @PumpPc.exit_of_inSelect s.pump.pc
  cases h with
  | drain hpc hd =>
    refine .of_eq ?_
    rw [(drain_polls hd).woken]
    simp only [Sys.wires, hpc, PumpPc.exit]
  | relayEmpty hpc | relaySend hpc | relaySent hpc | udpEmpty hpc | udpSent hpc
  | channelEmpty hpc | channelSent hpc | stay hpc | suspend hpc =>
    rw [Sys.goto_wires (by rw [hpc]; rfl)]
    exact .refl
  | leave hpc hend =>
    -- The pump leaves its loop only if the endpoint is closed.
    rw [mayEnd, Bool.and_eq_true] at hend
    refine .single (.leave ?_ hend.1)
    rw [Sys.wires, hpc]
    rfl
  | relayLost => exact .refl
  | udpSend hpc | channelSend hpc =>
    rw [Sys.goto_wires (by rw [hpc]; split <;> rfl)]
    exact .refl
  | relaySendFailed hpc =>
    refine .of_eq ?_
    split
    · exact (s.failHome_fails _ _).goto_wires (by rw [hpc]; rfl)
    · exact Sys.goto_wires (by rw [hpc]; rfl)
  | arm hpc =>
    rw [Sys.foldl_spawnUpgrade_frame]
    refine .of_eq ?_
    simp only [Sys.wires, hpc, List.append_nil]
    rfl
  | relaySignal hsel =>
    refine .of_eq ?_
    rw [Sys.handleSignal_frame]
    exact Sys.goto_wires (hselect hsel).symm
  | relayDatagram hsel _ _ _ hd =>
    rw [handleRelayDatagram_frame hd]
    exact .of_eq (Sys.goto_wires (hselect hsel).symm)
  | relayFailed hsel =>
    exact .of_eq ((Sys.failReceive_fails _ _ _ _).goto_wires (hselect hsel).symm)
  | udpReceived hsel _ _ hd =>
    rw [handleDatagram_frame hd]
    exact .of_eq (Sys.goto_wires (hselect hsel).symm)
  | udpFailed hsel | kicked hsel | redialOpened hsel =>
    exact .of_eq (Sys.goto_wires (hselect hsel).symm)
  | channelDatagram hsel _ hrecv hd =>
    refine .of_eq ?_
    rw [← Sys.takeChannelRecv_wires hi hrecv]
    rw [handleChannelDatagram_frame hd]
    exact Sys.goto_wires (hselect hsel).symm
  | channelText hsel _ hrecv =>
    refine .of_eq ?_
    rw [← Sys.takeChannelRecv_wires hi hrecv]
    exact Sys.goto_wires (hselect hsel).symm
  | @channelFailed id wire hsel _ hrecv =>
    have hcons := Sys.cons_channelRecvs hrecv
    refine .single_of_eq (.retire (hcons ▸ Multiset.mem_cons_self _ _)) ?_
    rw [Sys.goto_wires (by exact (hselect hsel).symm), retireChannel_frame, hcons,
      Multiset.erase_cons_head]
    rfl
  | redialTaken hpc | redialDropped hpc =>
    refine .of_eq ?_
    simp only [Sys.wires, Sys.goto, hpc]
    rfl
  | redialFailed hsel =>
    refine .of_eq ?_
    rw [Sys.failRedial]
    split <;> exact Sys.goto_wires (hselect hsel).symm
  | tick hsel => exact .of_eq ((Sys.sweep_fails _ _ _).goto_wires (hselect hsel).symm)
  | closeRelays hpc =>
    rw [foldl_closeRelay]
    exact .of_eq (Sys.goto_wires (by rw [hpc]; rfl))
  | closeWires hpc =>
    rw [foldl_closeWire]
    refine .single (.tear ?_)
    rw [Sys.wires, hpc]
    rfl
  | settled hpc =>
    have hle : Multiset.ofList ([] ++ s.st.newChannels) ≤ s.wires.recvs :=
      Multiset.coe_le.2 (List.sublist_append_right _ _).subperm
    refine .single (.settle ?_ hle)
    rw [Sys.wires, hpc]
    rfl

/-- A step of a `connect` call is no matter of the channels. -/
theorem ConnectStep.wires {s s' : Sys} (h : ConnectStep s s') : s'.wires = s.wires := by
  rw [h.frame]
  rfl

/-- A channel is refused, or registered with a receive. -/
theorem registerChannel_wires {s : Sys} {st : State} {peer : EndpointId}
    {result : Except Error Unit}
    (h : s.st.registerChannel peer ⟨s.channelWires⟩ = .ok (st, result)) :
    machine.Leads s.wires
      (Sys.wires { s with st := st, channelWires := s.channelWires + 1 }) := by
  rcases registerChannel_cases h with ⟨hc, rfl⟩ | ⟨hc, -, s₁, addr, h₁, rfl⟩
  · exact .single (.refuse hc)
  · refine .single_of_eq (@ChannelWires.Step.register _ peer
      ((s.st.signalingRelay peer).getD homeRelay) hc) ?_
    have hperm := List.perm_append_singleton (s.st.nextChannelId + 1, ChannelWire.mk s.channelWires)
      (s.pump.channelRecvs ++ s.st.newChannels)
    rw [addrForPeer_frame h₁]
    simp only [Sys.wires, kickPump, ← List.append_assoc, Multiset.coe_eq_coe.2 hperm]
    rfl

/-- A step of a signaling session is a run of the machine. -/
theorem SessionStep.wires {s s' : Sys} (h : SessionStep s s') :
    machine.Leads s.wires s'.wires := by
  cases h with
  | begin _ _ _ hb =>
    obtain ⟨-, rfl⟩ := beginSignaling_eq hb
    exact .refl
  | receive =>
    rw [nextSignalCheck_frame]
    exact .refl
  | @upgraded tid session st result _ _ _ _ hr =>
    exact @registerChannel_wires { s with st := s.st.endSignaling session.peer } _ _ _ hr
  | answered _ _ _ _ hr =>
    have hregister := registerChannel_wires hr
    exact hregister
  | _ => exact .refl

/-- A step of the endpoint is a run of the machine. -/
theorem Step.wires {s s' : Sys} (hi : s.wires.Inv) (h : Step s s') :
    machine.Leads s.wires s'.wires := by
  rcases h.cases with h | h | h | h
  · exact h.wires hi
  · exact .of_eq h.wires
  · exact h.wires
  · rw [h.frame]
    rcases h.closes with hc | hc <;> rw [hc]
    · exact .refl
    · exact .single .close

/-- The channels of the endpoint follow the machine. -/
theorem wires_simulation : Simulation endpoint machine Sys.wires where
  init := by
    rintro _ ⟨config, webrtc, now, st, key, hreg, rfl⟩
    obtain ⟨-, -, rfl⟩ := registerRelay_eq hreg
    rfl
  step := fun _ _ _ hr hst => Step.wires (ChannelWires.Inv.reachable hr) hst

/-! ## One receive for every wire -/

namespace Sys

/-- The receives of the relays: those of the pump, and those it is to arm. -/
def relayReceives (s : Sys) : List (RelayKey × RelayConn) := s.pump.relayRecvs ++ s.st.newRelays

/-- The receives of the channels. -/
def channelReceives (s : Sys) : List (ChannelId × ChannelWire) :=
  s.pump.channelRecvs ++ s.st.newChannels

end Sys

/-- Every live wire has one receive, and no retired one is armed again. -/
structure OneReceive (s : Sys) : Prop where
  /-- A connection in the pool has one receive, under its key. -/
  relay : ∀ key conn, s.st.relayPool.lookup key = some conn →
    (key, conn) ∈ s.relayReceives ∧ s.relayReceives.countP (fun r => r.2 = conn) = 1
  /-- Every other receive is of a connection that was closed. -/
  closed : ∀ key conn, (key, conn) ∈ s.relayReceives → s.st.relayPool.lookup key ≠ some conn →
    conn ∈ s.st.closedRelays
  /-- From then on, the connection is not in the pool, and gets no receive. -/
  abandoned : ∀ s', endpoint.Leads s s' → ∀ key conn, (key, conn) ∈ s.relayReceives →
    s.st.relayPool.lookup key ≠ some conn →
    s'.st.relayPool.lookup key ≠ some conn ∧
      s'.relayReceives.count (key, conn) ≤ s.relayReceives.count (key, conn)
  /-- A channel in the table has one receive, and there are no other ones. -/
  channel : ∀ id entry, s.st.channels.lookup id = some entry →
    (id, entry.wire) ∈ s.channelReceives ∧ s.channelReceives.countP (fun r => r.1 = id) = 1
  belongs : ∀ id wire, (id, wire) ∈ s.channelReceives →
    ∃ entry, s.st.channels.lookup id = some entry ∧ entry.wire = wire
  /-- A channel that was retired stays so, without a receive. -/
  retired : ∀ s', endpoint.Leads s s' → ∀ id ≤ s.st.nextChannelId, s.st.channels.lookup id = none →
    s'.st.channels.lookup id = none ∧ ∀ wire, (id, wire) ∉ s'.channelReceives

/-- The occurrences in a list, as a multiset. -/
theorem coe_count_eq {α : Type*} [DecidableEq α] [BEq α] [LawfulBEq α] (a : α) (l : List α) :
    l.count a = Multiset.count a ↑l := by
  rw [Multiset.count, Multiset.coe_countP, List.count]
  exact List.countP_congr fun b _ => by rw [beq_iff_eq, decide_eq_true_iff, eq_comm]

/-- An element that is there once, and of which no other one has the feature `f`, is the
    only one with it. -/
theorem countP_eq_one {α β : Type*} [DecidableEq α] [DecidableEq β] (f : α → β) {l : List α}
    {a : α} (h : Multiset.count a ↑l = 1) (honly : ∀ b ∈ l, f b = f a → b = a) :
    l.countP (fun b => f b = f a) = 1 := by
  rw [← h, Multiset.count, Multiset.coe_countP]
  refine List.countP_congr fun b hb => ?_
  rw [decide_eq_true_iff, decide_eq_true_iff]
  exact ⟨fun heq => (honly b hb heq).symm, fun heq => by rw [heq]⟩

/-- In its select, the pump has one receive for every live wire. -/
theorem oneReceive_reachable {s : Sys} (hs : endpoint.Reachable s)
    (hsel : s.pump.pc.inSelect = true) : OneReceive s := by
  have hr := relays_simulation.reachable hs
  have hw := RelayPool.Wired.reachable hr
  have hstage : s.relays.stage = .looping := PumpPc.stage_of_inSelect hsel
  have hlive := hw.live (by rw [hstage]; rfl)
  have harmed := hw.armed.resolve_right (by rw [hstage]; nofun)
  have hc := ChannelWires.Inv.reachable (wires_simulation.reachable hs)
  have hexit : s.wires.exit = .looping := PumpPc.exit_of_inSelect hsel
  refine ⟨fun key conn hk => ?_, fun key conn hmem hk => ?_, fun s' hl key conn hmem hk => ?_,
    fun id entry he => ?_, hc.belongs, fun s' hl id hle hn => ?_⟩
  · have hcount := harmed key conn hk
    refine ⟨Multiset.count_pos.1 (hcount ▸ Nat.zero_lt_one), countP_eq_one Prod.snd hcount ?_⟩
    -- The connection is not closed, so its receives have its key.
    rintro ⟨key', conn'⟩ hmem rfl
    rcases hw.stale key' conn' hmem with hp | hp
    · rw [hw.single key' key conn' hp hk]
    · exact absurd hp (hlive key conn' hk)
  · exact (hw.stale key conn hmem).resolve_left hk
  · have hgone : s.relays.Gone key conn := ⟨hw.started key conn hmem, by rw [hstage]; nofun, hk⟩
    obtain ⟨⟨-, -, hk'⟩, hle⟩ :=
      RelayPool.Abandons.leads hr (relays_simulation.leads hs hl) key conn hgone
    refine ⟨hk', ?_⟩
    rw [coe_count_eq, coe_count_eq]
    exact hle
  · have hmem := hc.armed.resolve_right (by rw [hexit]; nofun) id entry he
    refine ⟨hmem, countP_eq_one Prod.fst (Multiset.count_eq_one_of_mem hc.nodup hmem) ?_⟩
    rintro ⟨id', wire⟩ hmem' rfl
    obtain ⟨entry', he', rfl⟩ := hc.belongs id' wire hmem'
    cases Option.some.inj (he.symm.trans he')
    rfl
  · have hretired := ChannelWires.Retires.leads (wires_simulation.reachable hs)
      (wires_simulation.leads hs hl)
    have hn' := hretired.2 id hle hn
    refine ⟨hn', fun wire hmem => ?_⟩
    obtain ⟨entry, he, -⟩ :=
      (ChannelWires.Inv.reachable (wires_simulation.reachable (hs.leads hl))).belongs id wire hmem
    cases hn'.symm.trans he

/-- The home relay is found dead while a receive on it is pending: in the next select,
    the receive is there, and its connection is closed. -/
theorem oneReceive_outage : ∃ s s' : Sys,
    (s.st.relayPool.lookup homeRelay = some ⟨0⟩ ∧ OneReceive s) ∧
      (homeRelay, ⟨0⟩) ∈ s'.relayReceives ∧ s'.st.relayPool.lookup homeRelay = none ∧
        OneReceive s' := by
  have hidle := idle_reachable (.relayOnly "https://home.example") false 0
  have hdead := hidle.step (.pump (@PumpStep.tick _ (fun _ => .dead) none rfl rfl))
  have hdrain := hdead.step (.pump (@PumpStep.drain _ (fun _ => ⟨[], false⟩) _ _ rfl rfl))
  have hselect := select_reachable hdrain rfl rfl rfl rfl rfl rfl
  exact ⟨_, _, ⟨rfl, oneReceive_reachable hidle rfl⟩, List.mem_cons_self, rfl,
    oneReceive_reachable hselect rfl⟩

end IrohEndpoint
