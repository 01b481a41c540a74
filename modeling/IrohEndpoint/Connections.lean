import Mathlib.Data.Multiset.Bind
import IrohEndpoint.Ledger
import IrohEndpoint.Signaling

/-!
# The connections of the endpoint

The endpoint as a ledger of connections: its entries, the guards of its
`connect` calls, its accept queue, and the connections and streams that it
handed out (`Sys.ledger`). Every step of the endpoint is a run of the ledger
(`ledger_simulation`), so that the ledger's invariant holds in every reachable
state (`ledger_inv`), and every run advances the ledger (`ledger_advances`).
-/

namespace IrohEndpoint

open Transition

/-! ## The ledger of the endpoint -/

/-- What holds on to connections, outside of the shared state. -/
structure Holders where
  guards : Multiset (Stamp × EndpointId)
  resources : Multiset Stamp
  streams : List Stamp
  watches : List Stamp
  signaled : List (ChannelId × EndpointId)

/-- The ledger of a state. -/
def State.ledger (s : State) (h : Holders) : Ledger where
  conns := s.conns
  nextConnEpoch := s.nextConnEpoch
  insertions := s.insertions
  acceptQueue := s.acceptQueue
  guards := h.guards
  resources := h.resources
  streams := h.streams
  watches := h.watches
  signaled := h.signaled
  closed := s.closed

/-- The armed guard of a `connect` call. -/
def ConnectTask.guard (task : ConnectTask) : Multiset (Stamp × EndpointId) :=
  match task.phase with
  | .parked handle epoch => {((handle, epoch), task.peer)}
  | _ => 0

/-- The stamp of a connection handed to the application. -/
def ConnectionRes.stamp (res : ConnectionRes) : Stamp := (res.handle, res.epoch)

/-- The stamp of a stream. -/
def StreamRes.stamp (res : StreamRes) : Stamp := (res.handle, res.epoch)

/-- The armed guards of the `connect` calls in flight. -/
def guardsOf (connects : Table TaskId ConnectTask) : Multiset (Stamp × EndpointId) :=
  (connects.values : Multiset ConnectTask).bind ConnectTask.guard

/-- The stamps of the connections handed to the application. -/
def resourcesOf (connections : Table ResId ConnectionRes) : Multiset Stamp :=
  (connections.values : Multiset ConnectionRes).map ConnectionRes.stamp

/-- What holds on to connections in the endpoint. -/
def Sys.holders (s : Sys) : Holders where
  guards := guardsOf s.connects
  resources := resourcesOf s.connections
  streams := s.streams.map StreamRes.stamp
  watches := s.watches.map ConnectionRes.stamp
  signaled := s.registrations.map fun reg => (reg.id, reg.session.peer)

/-- The ledger of the endpoint. -/
def Sys.ledger (s : Sys) : Ledger := s.st.ledger s.holders

section Holders

variable {connects : Table TaskId ConnectTask} {tid : TaskId} {task task' : ConnectTask}
  {connections : Table ResId ConnectionRes} {rid : ResId} {res : ConnectionRes}

/-- The guards after a call went on. -/
theorem guardsOf_insert :
    guardsOf (connects.insert tid task) = task.guard + guardsOf (connects.erase tid) := by
  rw [guardsOf, Table.values_insert, ← Multiset.cons_coe, Multiset.cons_bind]
  rfl

/-- The guards, with that of one call apart. -/
theorem guardsOf_lookup (h : connects.lookup tid = some task) :
    guardsOf connects = task.guard + guardsOf (connects.erase tid) := by
  rw [guardsOf, Multiset.coe_eq_coe.2 (Table.values_perm h), ← Multiset.cons_coe,
    Multiset.cons_bind]
  rfl

/-- The guards, if there is no such call. -/
theorem guardsOf_erase (h : connects.lookup tid = none) :
    guardsOf (connects.erase tid) = guardsOf connects := by
  rw [Table.erase_of_lookup_none h]

/-- The connections after one more was handed out. -/
theorem resourcesOf_insert (h : connections.lookup rid = none) :
    resourcesOf (connections.insert rid res) = res.stamp ::ₘ resourcesOf connections := by
  rw [resourcesOf, Table.values_insert, Table.erase_of_lookup_none h, ← Multiset.cons_coe,
    Multiset.map_cons]
  rfl

/-- The connections, with one of them apart. -/
theorem resourcesOf_lookup (h : connections.lookup rid = some res) :
    resourcesOf connections = res.stamp ::ₘ resourcesOf (connections.erase rid) := by
  rw [resourcesOf, Multiset.coe_eq_coe.2 (Table.values_perm h), ← Multiset.cons_coe,
    Multiset.map_cons]
  rfl

/-- A connection that the application holds is held by its stamp. -/
theorem stamp_mem_resourcesOf (h : connections.lookup rid = some res) :
    res.stamp ∈ resourcesOf connections := by
  rw [resourcesOf_lookup h]
  exact Multiset.mem_cons_self _ _

end Holders

/-! ## The operations of the shared state -/

open Ledger

namespace State

variable {s s' : State} {h : Holders}

/-- The lookup of a stamp finds what is current under it. -/
theorem entryFor_eq_some {handle : ConnectionHandle} {epoch : ℕ} {e : ConnEntry} :
    s.entryFor handle epoch = some e ↔ (s.ledger h).Current (handle, epoch) e := by
  rw [entryFor, Option.filter_eq_some_iff, beq_iff_eq]
  rfl

/-- An entry evolves outside of its handshake. -/
theorem polled_leads {handle : ConnectionHandle} {e e' : ConnEntry}
    (hl : s.conns.lookup handle = some e) (he : e.Settles e') :
    machine.Leads (s.ledger h) (ledger { s with conns := s.conns.insert handle e' } h) := by
  refine .single (.polled fun handle' x hx => ?_)
  rcases Table.lookup_insert_some.1 hx with ⟨rfl, rfl⟩ | ⟨-, hx⟩
  · exact ⟨e, hl, he⟩
  · exact ⟨x, hx, .refl x⟩

/-- An entry evolves without being polled. -/
theorem settle_leads {handle : ConnectionHandle} {e e' : ConnEntry}
    (hl : s.conns.lookup handle = some e) (he : e.Rests e') :
    resting.Leads (s.ledger h) (ledger { s with conns := s.conns.insert handle e' } h) := by
  refine .single (.settle fun handle' x hx => ?_)
  rcases Table.lookup_insert_some.1 hx with ⟨rfl, rfl⟩ | ⟨-, hx⟩
  · exact ⟨e, hl, he⟩
  · exact ⟨x, hx, .refl x⟩

/-- A closed connection does not become live again. -/
theorem close_rests (e : ConnEntry) (code : ℕ) (reason : Bytes) :
    e.Rests { e with conn := e.conn.close code reason } := by
  refine ⟨⟨{ ConnEntry.Evolves.refl e with closeCall := fun hc => ?_ }, rfl, rfl, rfl⟩, rfl, rfl⟩
  exact (Option.or_eq_none_iff.1 hc).1

/-- Closing every connection. -/
theorem closeAll_leads (s : State) (reason : Bytes) (h : Holders) :
    resting.Leads (s.ledger h) ((s.closeAll reason).ledger h) := by
  refine .single (.settle fun handle e' he' => ?_)
  rw [closeAll, Table.lookup_mapValues, Option.map_eq_some_iff] at he'
  obtain ⟨e, hl, rfl⟩ := he'
  refine ⟨e, hl, ?_⟩
  rw [closeConn]
  split
  · exact close_rests e 0 reason
  · exact .refl e

/-- Closing the connection under a stamp. -/
theorem closeConnection_leads (s : State) (handle : ConnectionHandle) (epoch code : ℕ)
    (reason : Bytes) (h : Holders) :
    resting.Leads (s.ledger h) ((s.closeConnection handle epoch code reason).ledger h) := by
  rcases s.closeConnection_cases handle epoch code reason with ⟨hs, -⟩ | ⟨e, he, -, -, hs⟩ <;>
    rw [hs]
  · exact .refl
  · exact settle_leads (entryFor_eq_some (h := h).1 he).1 (close_rests e code reason)

/-- What is current under a stamp that was closed is not live. -/
theorem closeConnection_not_live (s : State) (handle : ConnectionHandle) (epoch code : ℕ)
    (reason : Bytes) (h : Holders) {e : ConnEntry}
    (he : ((s.closeConnection handle epoch code reason).ledger h).Current (handle, epoch) e) :
    ¬e.Live := by
  intro hlive
  rcases s.closeConnection_cases handle epoch code reason with ⟨hs, hdead⟩ | ⟨e₀, -, -, -, hs⟩ <;>
    rw [hs] at he
  · exact hdead e (entryFor_eq_some.2 he) ⟨hlive.error, hlive.drained⟩
  · have hx : (s.conns.insert handle { e₀ with conn := e₀.conn.close code reason }).lookup handle =
      some e := he.1
    rw [AList.lookup_insert] at hx
    cases hx
    have hc := hlive.closeCall
    exact absurd (Option.or_eq_none_iff.1 hc).2 nofun

/-! ### Polling -/

/-- The effect of `Connected` on an entry without a session. -/
theorem onConnected_leads {handle : ConnectionHandle} {e : ConnEntry} {session : CryptoSession}
    (hl : s.conns.lookup handle = some e) (hs : e.conn.session = none) :
    machine.Leads (s.ledger h) (ledger { s with
      conns := s.conns.insert handle (onConnected { e with
        conn := { e.conn with session := some session } } handle session s.acceptQueue).1
      acceptQueue := (onConnected { e with
        conn := { e.conn with session := some session } } handle session s.acceptQueue).2 } h) := by
  have hcases := onConnected_cases { e with
    conn := { e.conn with session := some session } } handle session s.acceptQueue
  rcases hcases with ⟨k, alpn, hk, hexp, heq⟩ | ⟨alpn, heq⟩ <;> rw [heq]
  · exact .single (@Ledger.Step.connected _ handle e { e with
      conn := { e.conn with session := some session }, alpn := alpn, peer := some k
      connected := true } session k hl { ConnEntry.Evolves.refl e with } hs rfl hk rfl hexp rfl)
  · exact .single (.mismatch hl { ConnEntry.Evolves.refl e with
      closeCall := fun hc => (Option.or_eq_none_iff.1 hc).1, error := nofun } hs rfl nofun)

/-- Polling an event of a connection. -/
theorem pollEvent_leads {handle : ConnectionHandle} {event : Event}
    (hp : pollEvent handle s event = .ok s') : machine.Leads (s.ledger h) (s'.ledger h) := by
  rw [pollEvent] at hp
  split at hp <;> rename_i hl
  · cases hp
    exact .refl
  · rename_i e
    cases event with
    | connected session =>
      rw [NoqConnection.emit] at hp
      cases hs : e.conn.session with
      | some _ =>
        rw [hs] at hp
        cases hp
      | none =>
        rw [hs] at hp
        cases hp
        exact onConnected_leads hl hs
    | connectionLost reason =>
      cases hp
      exact polled_leads hl ⟨{ ConnEntry.Evolves.refl e with error := by simp }, rfl, rfl, rfl⟩
    | streamOpened bi uni =>
      cases hp
      exact polled_leads hl ⟨{ ConnEntry.Evolves.refl e with }, rfl, rfl, rfl⟩
    | _ =>
      cases hp
      exact polled_leads hl (.refl e)

/-- Marking a drained connection. -/
theorem markDrained_leads (s : State) (handle : ConnectionHandle) (isDrained : Bool) (h : Holders) :
    machine.Leads (s.ledger h) ((s.markDrained handle isDrained).1.ledger h) := by
  rw [markDrained]
  split <;> rename_i hl
  · exact .refl
  · rename_i e
    split
    · exact polled_leads hl ⟨{ ConnEntry.Evolves.refl e with drained := by simp }, rfl, rfl, rfl⟩
    · exact .refl

/-- A transmit concerns no connection. -/
theorem routeTransmit_ledger {transmit : SocketAddr × Bytes}
    (hr : s.routeTransmit transmit = .ok s') (h : Holders) : s'.ledger h = s.ledger h := by
  rw [routeTransmit] at hr
  split at hr
  · split at hr <;> cases hr
    rfl
  · cases hr; rfl
  · cases hr; rfl

/-- Draining the connections. -/
theorem drain_leads {polling : ConnectionHandle → Polling} {b : Bool}
    (hd : s.drain polling = .ok (s', b)) : machine.Leads (s.ledger h) (s'.ledger h) :=
  drain_rel (R := fun s s' => machine.Leads (s.ledger h) (s'.ledger h)) (fun _ => .refl)
    (fun _ _ _ => Relation.ReflTransGen.trans) (fun _ _ _ _ => pollEvent_leads)
    (fun _ _ _ hr => .of_eq (routeTransmit_ledger hr h))
    (fun s handle isDrained => s.markDrained_leads handle isDrained h) hd

/-! ### Datagrams and calls -/

/-- A datagram may make a connection, from where it comes from. -/
theorem handleDatagram_leads (origin : Origin) {addr : SocketAddr} {event : DatagramEvent}
    (hside : origin.accepted = true)
    (hchannel : ∀ id peer, origin = .channel id peer → (id, peer) ∈ h.signaled)
    (hd : s.handleDatagram addr origin.claim origin event = .ok s') :
    resting.Leads (s.ledger h) (s'.ledger h) := by
  rcases handleDatagram_cases hd with rfl | ⟨packet, rfl⟩ | ⟨handle, epoch, hopen, hins⟩
  · exact .refl
  · rw [pushResponse_frame]
    exact .refl
  · obtain ⟨-, -, -, rfl⟩ := insertConn_eq hins
    refine .single_of_eq (@Ledger.Rest.inserted _ handle origin addr hopen hchannel) ?_
    cases origin <;> simp [State.ledger, Ledger.insert, freshGuard, fresh, Origin.accepted] at hside ⊢

/-- `connect` succeeds with a connected entry that has not failed. -/
theorem connectCheck_ok {handle : ConnectionHandle} {epoch : ℕ}
    (hc : s.connectCheck handle epoch = some (.ok ())) :
    ∃ e, s.entryFor handle epoch = some e ∧ e.error = none ∧ e.connected = true := by
  rw [connectCheck] at hc
  split at hc
  · cases hc
  · rename_i e he
    split at hc <;> rename_i herr
    · cases hc
    · split at hc <;> rename_i hconn
      · exact ⟨e, he, herr, hconn⟩
      · cases hc

/-- Taking a stream off a queue. -/
theorem acceptStreamCheck_leads {handle : ConnectionHandle} {epoch : ℕ} {dir : Dir}
    {result : Option (Except Error StreamId)}
    (hc : s.acceptStreamCheck handle epoch dir = (s', result)) :
    resting.Leads (s.ledger h) (s'.ledger h) := by
  rcases acceptStreamCheck_cases hc with rfl | ⟨e, rest, he, rfl⟩
  · exact .refl
  · refine settle_leads (entryFor_eq_some (h := h).1 he).1 ?_
    cases dir <;> exact ⟨⟨{ ConnEntry.Evolves.refl e with }, rfl, rfl, rfl⟩, rfl, rfl⟩

/-- The elements of the queue that are no longer there are skipped, up to the first
    that is. -/
theorem popCurrent_leads (s : State) (h : Holders) (queue : List Stamp) :
    resting.Leads (ledger { s with acceptQueue := queue } h)
      (ledger { s with
        acceptQueue := ((s.popCurrent queue).2.toList ++ (s.popCurrent queue).1) } h) := by
  induction queue with
  | nil => exact .refl
  | cons stamp rest ih =>
    obtain ⟨handle, epoch⟩ := stamp
    rw [popCurrent]
    split <;> rename_i hc
    · exact .refl
    · refine .head (.skip rfl fun e he => hc ?_) ih
      exact Option.isSome_iff_exists.2 ⟨e, (entryFor_eq_some (h := h)).2 he⟩

/-- What is taken off the queue is current. -/
theorem popCurrent_current {queue rest : List Stamp} {stamp : Stamp}
    (hp : s.popCurrent queue = (rest, some stamp)) :
    ∃ e, s.entryFor stamp.1 stamp.2 = some e := by
  induction queue with
  | nil => cases hp
  | cons head tail ih =>
    rw [popCurrent] at hp
    split at hp <;> rename_i hc
    · cases hp
      exact Option.isSome_iff_exists.1 hc
    · exact ih hp

end State

/-! ## The endpoint refines the ledger -/

open State

/-- A failing relay concerns no connection. -/
theorem Sys.FailsRelays.ledger {s s' : Sys} (h : Sys.FailsRelays s s') : s'.ledger = s.ledger := by
  rw [FailsRelays] at h
  rw [h]
  rfl

/-- The pump polls its connections, which noq answers by `polling`. -/
def Sys.Drains (s s' : Sys) (polling : ConnectionHandle → Polling) : Prop :=
  s.pump.pc = .top ∧ ∃ st progressed, s.st.drain polling = .ok (st, progressed) ∧
    s' = { s with
      st := if progressed || s.pump.forceWake then st.wakeWaiters else st
      pump := { s.pump with forceWake := false, pc := .flushRelay } }

/-- Polling the connections is a run of the ledger. -/
theorem Sys.Drains.ledger {s s' : Sys} {polling : ConnectionHandle → Polling}
    (h : s.Drains s' polling) : machine.Leads s.ledger s'.ledger := by
  obtain ⟨-, st, progressed, hd, rfl⟩ := h
  have hst := drain_leads (h := s.holders) hd
  dsimp only
  split <;> exact hst

/-- A step of the pump that does not poll the connections. -/
theorem PumpStep.ledger {s s' : Sys} (hs : endpoint.Reachable s)
    (hn : ∀ polling, ¬s.Drains s' polling) (h : PumpStep s s') :
    resting.Leads s.ledger s'.ledger := by
  cases h with
  | drain hpc hd => exact absurd ⟨hpc, _, _, hd, rfl⟩ (hn _)
  | relaySendFailed =>
    split
    · exact .of_eq (s.failHome_fails _ _).ledger
    · exact .refl
  | arm =>
    rw [Sys.foldl_spawnUpgrade_frame]
    exact .refl
  | relaySignal =>
    rw [Sys.handleSignal_frame]
    exact .refl
  | @relayDatagram _ _ source _ _ _ _ _ _ _ hd =>
    obtain ⟨s₁, addr, h₁, h₂⟩ := handleRelayDatagram_eq hd
    have hst := handleDatagram_leads (h := s.holders) (.relay source) rfl nofun h₂
    rw [addrForPeer_frame h₁] at hst
    exact hst
  | relayFailed => exact .of_eq (Sys.failReceive_fails _ _ _ _).ledger
  | udpReceived _ _ _ hd =>
    have hst := handleDatagram_leads (h := s.holders) .udp rfl nofun hd
    exact hst
  | @channelDatagram id _ _ _ _ _ _ hd =>
    rcases handleChannelDatagram_cases hd with ⟨-, rfl⟩ | ⟨entry, s₁, addr, hc, h₁, h₂⟩
    · exact .refl
    · -- The channel was registered by a session with its peer.
      have hsig := Signaling.Inv.reachable (signaling_simulation.reachable hs)
      obtain ⟨reg, hreg, hid, hentry⟩ := hsig.known id entry hc
      have hst := handleDatagram_leads (h := s.holders) (.channel id entry.peer) rfl
        (fun id' peer ho => by
          cases ho
          refine List.mem_map.2 ⟨reg, hreg, ?_⟩
          rw [hid, ← (hsig.registered reg hreg).peer, hentry]) h₂
      rw [addrForPeer_frame h₁] at hst
      exact hst
  | channelFailed =>
    rw [retireChannel_frame]
    exact .refl
  | redialFailed =>
    rw [Sys.failRedial]
    split <;> exact .refl
  | tick => exact .of_eq (Sys.sweep_fails _ _ _).ledger
  | closeRelays =>
    rw [foldl_closeRelay]
    exact .refl
  | closeWires =>
    rw [foldl_closeWire]
    exact .refl
  | _ => exact .refl

/-- A call that is not waiting for its handshake has no guard. -/
theorem ConnectTask.guard_eq_zero {task : ConnectTask}
    (h : ∀ handle epoch, task.phase ≠ .parked handle epoch) : task.guard = 0 := by
  rw [guard]
  split
  · rename_i hp
    exact absurd hp (h _ _)
  · rfl

/-- A call that goes on without a guard holds on to nothing. -/
theorem guardsOf_step {connects : Table TaskId ConnectTask} {tid : TaskId} {task : ConnectTask}
    {phase : ConnectPhase} (hl : connects.lookup tid = some task)
    (hold : ∀ handle epoch, task.phase ≠ .parked handle epoch)
    (hnew : ∀ handle epoch, phase ≠ .parked handle epoch) :
    guardsOf (connects.insert tid { task with phase := phase }) = guardsOf connects := by
  rw [guardsOf_insert, guardsOf_lookup hl, ConnectTask.guard_eq_zero hold,
    ConnectTask.guard_eq_zero hnew]

/-- A call goes on, in the state `st`. -/
theorem Sys.proceed_ledger {s : Sys} {tid : TaskId} {task : ConnectTask} {phase : ConnectPhase}
    (hl : s.connects.lookup tid = some task)
    (hold : ∀ handle epoch, task.phase ≠ .parked handle epoch)
    (hnew : ∀ handle epoch, phase ≠ .parked handle epoch) :
    (s.proceed tid task phase).ledger = s.ledger := by
  simp only [ledger, holders, proceed, guardsOf_step hl hold hnew]

/-- A call awaits or ends, in the state `st`. -/
theorem Sys.pause_ledger {s : Sys} {tid : TaskId} {task : ConnectTask} {phase : ConnectPhase}
    (hl : s.connects.lookup tid = some task)
    (hold : ∀ handle epoch, task.phase ≠ .parked handle epoch)
    (hnew : ∀ handle epoch, phase ≠ .parked handle epoch) :
    (s.pause tid task phase).ledger = s.ledger := by
  simp only [ledger, holders, pause, guardsOf_step hl hold hnew]

/-- The phase after a pool key was resolved has no guard. -/
theorem Target.next_ne_parked (target : Target) (key : RelayKey) (handle : ConnectionHandle)
    (epoch : ℕ) : target.next key ≠ .parked handle epoch := by
  cases target <;> nofun

/-- The phase without a pool key to resolve has no guard. -/
theorem Target.skip_ne_parked (target : Target) (handle : ConnectionHandle) (epoch : ℕ) :
    target.skip ≠ .parked handle epoch := by
  cases target <;> nofun

/-- The guard of a dial that ends is released, and what it held is not live. -/
theorem Sys.released_leads {s : Sys} {tid : TaskId} {task : ConnectTask}
    {handle : ConnectionHandle} {epoch : ℕ} (hl : s.connects.lookup tid = some task)
    (hp : task.phase = .parked handle epoch) {connects : Table TaskId ConnectTask}
    (hc : guardsOf connects = guardsOf (s.connects.erase tid)) :
    resting.Leads s.ledger ((s.st.dropDialGuard handle epoch).ledger
      { s.holders with guards := guardsOf connects }) := by
  have hguards : s.holders.guards = ((handle, epoch), task.peer) ::ₘ guardsOf connects := by
    rw [hc, ← Multiset.singleton_add]
    refine (guardsOf_lookup hl).trans ?_
    rw [ConnectTask.guard, hp]
  have hclose := s.st.closeConnection_leads handle epoch 0 "connect cancelled".toUTF8.toList s.holders
  exact hclose.tail (.released hguards fun e he =>
    s.st.closeConnection_not_live handle epoch 0 _ s.holders he)

/-- A step of a `connect` call is a run of the ledger. -/
theorem ConnectStep.ledger {s s' : Sys} (h : ConnectStep s s') :
    resting.Leads s.ledger s'.ledger := by
  cases h with
  | refused => exact .refl
  | call _ hn =>
    refine .of_eq ?_
    simp only [Sys.ledger, Sys.holders, Sys.proceed, guardsOf_insert, guardsOf_erase hn]
    rw [ConnectTask.guard_eq_zero (by nofun), zero_add]
  | skip _ hl hp =>
    exact .of_eq (Sys.proceed_ledger hl (by rw [hp]; nofun) (Target.skip_ne_parked _))
  | found _ hl hp _ he =>
    rw [Sys.proceed_ledger (by exact hl) (by rw [hp]; nofun) (Target.next_ne_parked _ _),
      ensureRelay_frame he]
    exact .refl
  | closed _ hl hp _ he | claimed _ hl hp _ he =>
    rw [Sys.pause_ledger (by exact hl) (by rw [hp]; nofun) (by nofun), ensureRelay_frame he]
    exact .refl
  | shared _ hl hp _ he =>
    rw [Sys.pause_ledger (by exact hl) (by rw [hp]; nofun) (by nofun), ensureRelay_frame he]
    exact .refl
  | opened _ hl hp _ hr =>
    obtain ⟨-, -, rfl⟩ := registerRelay_eq hr
    rw [Sys.proceed_ledger (by exact hl) (by rw [hp]; nofun) (Target.next_ne_parked _ _)]
    exact .refl
  | openFailed _ hl hp | wokenFailed _ hl hp | tlsFailed _ hl hp | dialClosed _ hl hp =>
    rw [Sys.pause_ledger (by exact hl) (by rw [hp]; nofun) (by nofun)]
    exact .refl
  | woken _ hl hp =>
    exact .of_eq (Sys.proceed_ledger hl (by rw [hp]; nofun) (Target.next_ne_parked _ _))
  | dialFailed _ hl hp _ ha =>
    rw [Sys.pause_ledger (by exact hl) (by rw [hp]; nofun) (by nofun), dialAddr_frame ha]
    exact .refl
  | @dialed tid task _ _ st st' remote handle epoch _ hl hp hopen ha hd =>
    obtain ⟨s₁, _, h₁, rfl⟩ := dialed_eq hd
    obtain ⟨-, -, rfl, rfl⟩ := insertConn_eq h₁
    rw [dialAddr_frame ha]
    have hzero : task.guard = 0 := ConnectTask.guard_eq_zero (by rw [hp]; nofun)
    have hold := guardsOf_lookup hl
    rw [hzero, zero_add] at hold
    -- The insertion gives the call its guard.
    refine .single_of_eq (@Ledger.Rest.inserted _ handle (.dialed task.peer) remote hopen nofun) ?_
    simp only [Sys.ledger, Sys.holders, Sys.pause, guardsOf_insert, ← hold]
    rfl
  | @connected tid task handle epoch rid _ hl hp hc hr =>
    obtain ⟨e, he, -, hconn⟩ := connectCheck_ok hc
    have hguards : s.holders.guards =
        ((handle, epoch), task.peer) ::ₘ guardsOf (s.connects.erase tid) := by
      rw [← Multiset.singleton_add]
      refine (guardsOf_lookup hl).trans ?_
      rw [ConnectTask.guard, hp]
    -- The guard is disarmed, and the resource takes its place.
    refine .single_of_eq (.completed hguards ((entryFor_eq_some (h := s.holders)).1 he) hconn) ?_
    simp only [Sys.ledger, Sys.holders, Sys.pause, resourcesOf_insert hr, guardsOf_insert]
    rw [ConnectTask.guard_eq_zero (by nofun), zero_add]
    rfl
  | failed _ hl hp =>
    refine Sys.released_leads hl hp (guardsOf_insert.trans ?_)
    rw [ConnectTask.guard_eq_zero (by nofun), zero_add]
  | cancelOpening _ hl hp | cancelWaiting _ hl hp =>
    refine .of_eq ?_
    have hzero := ConnectTask.guard_eq_zero (by rw [hp]; nofun)
    have hold := guardsOf_lookup hl
    rw [hzero, zero_add] at hold
    exact congrArg (fun g => s.st.ledger { s.holders with guards := g }) hold.symm
  | cancelParked _ hl hp => exact Sys.released_leads hl hp rfl

/-- A step of a signaling session may register a channel. -/
theorem SessionStep.ledger {s s' : Sys} (h : SessionStep s s') :
    resting.Leads s.ledger s'.ledger := by
  cases h with
  | begin _ _ _ hb =>
    obtain ⟨-, rfl⟩ := beginSignaling_eq hb
    exact .refl
  | receive =>
    rw [nextSignalCheck_frame]
    exact .refl
  | @upgraded _ session st _ _ _ _ _ hr | @answered _ session st _ _ _ _ _ hr =>
    refine .single_of_eq (@Ledger.Rest.signal _ ((session.registration s.st st).map fun reg =>
      (reg.id, reg.session.peer))) ?_
    rw [registerChannel_frame hr]
    simp only [Sys.ledger, Sys.holders, List.map_append]
    rfl
  | _ => exact .refl

/-- `accept` skips what is no longer there, and hands out what is. -/
theorem acceptCheck_leads {s st : State} {h : Holders} {handle : ConnectionHandle} {epoch : ℕ}
    (hc : s.acceptCheck = (st, some (.ok (handle, epoch)))) :
    resting.Leads (s.ledger h) (st.ledger { h with
      resources := (handle, epoch) ::ₘ h.resources }) := by
  have hpop := s.popCurrent_leads h s.acceptQueue
  rw [acceptCheck] at hc
  split at hc <;> rename_i hp
  · rename_i rest stamp
    cases hc
    obtain ⟨e, he⟩ := popCurrent_current hp
    rw [hp] at hpop
    exact hpop.tail (.accept rfl (entryFor_eq_some.1 he))
  · split at hc <;> cases hc

/-- `accept` skips what is no longer there, and finds nothing. -/
theorem acceptCheck_none_leads {s st : State} {h : Holders}
    {result : Option (Except Error (ConnectionHandle × ℕ))}
    (hc : s.acceptCheck = (st, result)) (hr : ∀ stamp, result ≠ some (.ok stamp)) :
    resting.Leads (s.ledger h) (st.ledger h) := by
  have hpop := s.popCurrent_leads h s.acceptQueue
  rw [acceptCheck] at hc
  split at hc <;> rename_i hp
  · cases hc
    exact absurd rfl (hr _)
  · cases hc
    rw [hp] at hpop
    exact hpop

/-- The streams that a call hands out have the stamp of its connection. -/
theorem ConnectionRes.mem_minted {res : ConnectionRes} {result : Option (Except Error StreamId)}
    {stream : StreamRes} (h : stream ∈ res.minted result) : stream.stamp = res.stamp := by
  unfold minted at h
  split at h
  · rw [List.mem_singleton.1 h]
    rfl
  · exact absurd h List.not_mem_nil

/-- A call on a connection may hand out a stream of it. -/
theorem Sys.minted_leads {s : Sys} {rid : ResId} {res : ConnectionRes}
    (hr : s.connections.lookup rid = some res) {st : State}
    (hst : resting.Leads s.ledger (st.ledger s.holders))
    (result : Option (Except Error StreamId)) :
    resting.Leads s.ledger
      (ledger { s with st := st, streams := s.streams ++ res.minted result }) := by
  refine hst.tail (.mint (fun stamp hmem => ?_) fun _ => .inl)
  obtain ⟨stream, hstream, rfl⟩ := List.mem_map.1 hmem
  rcases List.mem_append.1 hstream with hstream | hstream
  · exact .inl (List.mem_map_of_mem hstream)
  · rw [ConnectionRes.mem_minted hstream]
    exact .inr (stamp_mem_resourcesOf hr)

/-- A step of the endpoint that does not poll the connections. -/
theorem Step.ledger {s s' : Sys} (hs : endpoint.Reachable s)
    (hn : ∀ polling, ¬s.Drains s' polling) (h : Step s s') :
    resting.Leads s.ledger s'.ledger := by
  cases h with
  | pump h => exact h.ledger hs hn
  | connect h => exact h.ledger
  | session h => exact h.ledger
  | accept _ hc hr =>
    have hst := acceptCheck_leads (h := s.holders) hc
    refine hst.trans (System.Leads.of_eq ?_)
    simp only [Sys.ledger, Sys.holders, resourcesOf_insert hr]
    rfl
  | acceptClosed _ hc =>
    have hst := acceptCheck_none_leads (h := s.holders) hc nofun
    exact hst
  | acceptPark _ hc =>
    have hst := acceptCheck_none_leads (h := s.holders) hc nofun
    exact hst
  | @closeEndpoint reason =>
    rw [State.closeEndpoint]
    split
    · exact .refl
    · have hclose := s.st.closeAll_leads reason s.holders
      exact hclose.tail .close
  | closeConnection => exact s.st.closeConnection_leads _ _ _ _ s.holders
  | @dropConnection rid res _ hr =>
    -- The drop closes the connection, so it needs no owner any more.
    have hclose := s.st.closeConnection_leads res.handle res.epoch (appCode 0) [] s.holders
    exact hclose.tail (.drop (resourcesOf_lookup hr) fun e he =>
      s.st.closeConnection_not_live res.handle res.epoch (appCode 0) [] s.holders he)
  | openStream _ hr hc =>
    refine Sys.minted_leads hr ?_ _
    rcases openStreamCheck_cases hc with rfl | rfl <;> exact .refl
  | acceptStream _ hr hc =>
    exact Sys.minted_leads hr (acceptStreamCheck_leads hc) _
  | pathChanges _ hr =>
    refine .single (.mint (fun _ => .inl) fun stamp hmem => ?_)
    obtain ⟨watch, hwatch, rfl⟩ := List.mem_map.1 hmem
    rcases List.mem_append.1 hwatch with hwatch | hwatch
    · exact .inl (List.mem_map_of_mem hwatch)
    · rw [List.mem_singleton.1 hwatch]
      exact .inr (stamp_mem_resourcesOf hr)
  | _ => exact .refl

/-- The connections of the endpoint follow the ledger. -/
theorem ledger_simulation : Simulation endpoint machine Sys.ledger where
  init := by
    rintro _ ⟨config, webrtc, now, st, key, hr, rfl⟩
    obtain ⟨-, -, rfl⟩ := registerRelay_eq hr
    rfl
  step := by
    intro s s' hs _ hst
    by_cases hd : ∃ polling, s.Drains s' polling
    · obtain ⟨polling, hd⟩ := hd
      exact hd.ledger
    · exact machine_leads (Step.ledger hs (not_exists.1 hd) hst)

/-- The ledger's invariant holds in every reachable state. -/
theorem ledger_inv {s : Sys} (hs : endpoint.Reachable s) : s.ledger.Inv :=
  Inv.reachable (ledger_simulation.reachable hs)

/-- Once the pump is out of its loop, the endpoint is closed. -/
theorem left_closed {s : Sys} (hs : endpoint.Reachable s) (hl : s.pump.pc.left = true) :
    s.st.closed = true := by
  revert hl
  refine hs.invariant (P := fun s => s.pump.pc.left = true → s.st.closed = true) ?_ ?_
  · rintro _ ⟨config, webrtc, now, st, key, hr, rfl⟩ hl
    cases hl
  · intro s s' hr hst hi hl
    have hclosed : s.st.closed = true := by
      rcases hst.left hl with hl | ⟨-, -, hc⟩
      · exact hi hl
      · exact hc
    by_cases hd : ∃ polling, s.Drains s' polling
    · -- The pump polls in its loop.
      obtain ⟨polling, -, st, progressed, -, rfl⟩ := hd
      cases hl
    · exact (resting_follows (Step.ledger hr (not_exists.1 hd) hst)).closed hclosed

/-- A step out of the loop, or past it, finds the endpoint closed. -/
theorem Step.closed_of_left {s s' : Sys} (hs : endpoint.Reachable s) (hst : Step s s')
    (hl : s'.pump.pc.left = true) : s.st.closed = true := by
  rcases hst.left hl with hl | ⟨-, -, hc⟩
  · exact left_closed hs hl
  · exact hc

/-- Every run advances the ledger. -/
theorem ledger_advances {s s' : Sys} (hs : endpoint.Reachable s) (h : endpoint.Leads s s') :
    Advances s.ledger s'.ledger :=
  System.Leads.rel Advances.refl (fun _ _ _ => Advances.trans)
    (fun _ _ _ hst => Ledger.Step.advances hst) (ledger_simulation.reachable hs)
    (ledger_simulation.leads hs h)

end IrohEndpoint
