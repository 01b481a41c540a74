import IrohEndpoint.Drain
import IrohEndpoint.Connections

/-!
# What a step does to the connections

The table of connections and the queue of those to accept are one *desk*
(`State.desk`). A step of the endpoint does one of four things to it
(`Step.acts`):

* it polls the connections (`Sys.Drains`);
* it hands out an accepted connection (`Sys.Accepts`);
* it hands out a stream that the peer of a connection opened
  (`Sys.AcceptsStream`);
* it leaves the desk alone, inserts a connection, closes connections, or drops
  what is no longer there from the queue (`State.Acts`).
-/

namespace IrohEndpoint

open Transition State

/-- The connections, and the queue of those to accept. -/
structure Desk where
  conns : Table ConnectionHandle ConnEntry
  acceptQueue : List Stamp
  nextConnEpoch : ℕ
  insertions : List Insertion

/-- The desk of a state. -/
def State.desk (s : State) : Desk where
  conns := s.conns
  acceptQueue := s.acceptQueue
  nextConnEpoch := s.nextConnEpoch
  insertions := s.insertions

/-- What a step does to the desk, if it neither polls the connections nor hands out
    a connection or a stream. -/
inductive State.Acts (s : State) : Desk → Prop
  | rest : Acts s s.desk
  /-- A dial or a datagram makes a connection, in a slot that is free; a datagram
      only below the backlog. -/
  | inserted {handle : ConnectionHandle} {origin : Origin} {remote : SocketAddr} :
      s.closed = false → (∀ e, s.conns.lookup handle = some e → e.drained = true) →
      (origin.accepted = true → s.acceptBacklog < acceptBacklogBound) →
      Acts s { s.desk with
        nextConnEpoch := s.nextConnEpoch + 1
        insertions := s.insertions ++ [⟨handle, s.nextConnEpoch, s.insertions.length⟩]
        conns := s.conns.insert handle (.new (.new s.insertions.length origin remote) origin.claim
          origin.accepted s.nextConnEpoch) }
  /-- Connections are closed. -/
  | closed {conns : Table ConnectionHandle ConnEntry}
      {closeCall : ConnectionHandle → ConnEntry → Option (ℕ × Bytes)} :
      (∀ handle, conns.lookup handle = (s.conns.lookup handle).map fun e =>
        { e with conn := { e.conn with closeCall := closeCall handle e } }) →
      Acts s { s.desk with conns := conns }
  /-- The queue only holds what is no longer there. -/
  | skipped :
      (∀ stamp ∈ s.acceptQueue, s.entryFor stamp.1 stamp.2 = none) →
      Acts s { s.desk with acceptQueue := [] }

/-- The step hands out the connection of the queue under `stamp`. -/
def Sys.Accepts (s s' : Sys) (stamp : Stamp) : Prop :=
  ∃ tid st rid, s.quiet = true ∧ s.st.acceptCheck = (st, some (.ok stamp)) ∧
    s.connections.lookup rid = none ∧
    s' = { s with
      st := st
      accepts := s.accepts.erase tid
      connections := s.connections.insert rid ⟨stamp.1, stamp.2⟩ }

/-- The step hands out the stream `id` that the peer of the connection `res`
    opened. -/
def Sys.AcceptsStream (s s' : Sys) (res : ConnectionRes) (dir : Dir) (id : StreamId) : Prop :=
  ∃ rid st, s.quiet = true ∧ s.connections.lookup rid = some res ∧
    s.st.acceptStreamCheck res.handle res.epoch dir = (st, some (.ok id)) ∧
    s' = { s with st := st, streams := s.streams ++ res.minted (some (.ok id)) }

/-! ## The operations -/

namespace State

variable {s s' : State}

/-- The desk is left alone. -/
theorem Acts.of_eq {d : Desk} (h : d = s.desk) : s.Acts d := h ▸ .rest

/-- What a step does to the desk depends on the desk, and on whether the endpoint is
    closed. -/
theorem Acts.congr {d : Desk} (hd : s'.desk = s.desk) (hc : s'.closed = s.closed)
    (h : s'.Acts d) : s.Acts d := by
  have hconns : s'.conns = s.conns := congrArg Desk.conns hd
  have hqueue : s'.acceptQueue = s.acceptQueue := congrArg Desk.acceptQueue hd
  have hepoch : s'.nextConnEpoch = s.nextConnEpoch := congrArg Desk.nextConnEpoch hd
  have hins : s'.insertions = s.insertions := congrArg Desk.insertions hd
  cases h with
  | rest => exact .of_eq hd
  | @inserted handle origin remote hopen hfree hbacklog =>
    rw [acceptBacklog, hconns, hqueue] at hbacklog
    rw [hd, hconns, hepoch, hins]
    exact .inserted (hc ▸ hopen) (hconns ▸ hfree) hbacklog
  | closed h =>
    rw [hd]
    exact .closed (hconns ▸ h)
  | skipped h =>
    rw [hd]
    refine .skipped fun stamp hmem => ?_
    have hnone := h stamp (hqueue ▸ hmem)
    rwa [entryFor, hconns] at hnone

/-- An incoming attempt is only accepted below the backlog. -/
theorem handleDatagram_acts (origin : Origin) {addr : SocketAddr} {event : DatagramEvent}
    (hside : origin.accepted = true)
    (h : s.handleDatagram addr origin.claim origin event = .ok s') : s.Acts s'.desk := by
  cases event with
  | connectionEvent _ =>
    cases h
    exact .rest
  | ignored =>
    cases h
    exact .rest
  | response packet =>
    cases h
    rw [pushResponse_frame]
    exact .rest
  | newConnection refusal accepted =>
    simp only [handleDatagram] at h
    split at h <;> rename_i hopen
    · cases h
      exact .rest
    · split at h <;> rename_i hbacklog
      · cases h
        rw [pushResponse_frame]
        exact .rest
      · split at h
        · obtain ⟨⟨s₁, epoch⟩, h₁, h⟩ := Except.bind_eq_ok.1 h
          cases h
          obtain ⟨hfree, -, -, rfl⟩ := insertConn_eq h₁
          have hins := @Acts.inserted s _ origin addr (by simpa using hopen) hfree
            fun _ => Nat.lt_of_not_le hbacklog
          rw [hside] at hins
          exact hins
        · cases h
          rw [pushResponse_frame]
          exact .rest
        · cases h
          exact .rest

/-- Closing the connection under a stamp. -/
theorem closeConnection_acts (s : State) (handle : ConnectionHandle) (epoch code : ℕ)
    (reason : Bytes) : s.Acts (s.closeConnection handle epoch code reason).desk := by
  rcases s.closeConnection_cases handle epoch code reason with ⟨h, -⟩ | ⟨e, he, -, -, h⟩ <;> rw [h]
  · exact .rest
  · obtain ⟨hl, -⟩ := entryFor_iff.1 he
    refine @Acts.closed s _ (fun handle' e' => if handle' = handle then
      (e.conn.close code reason).closeCall else e'.conn.closeCall) fun handle' => ?_
    simp only [kickPump, Table.lookup_insert_eq]
    by_cases hh : handle' = handle
    · subst hh
      simp [hl, NoqConnection.close]
    · simp only [if_neg hh]
      cases s.conns.lookup handle' <;> rfl

/-- Closing every connection. -/
theorem closeAll_acts (s : State) (reason : Bytes) : s.Acts (s.closeAll reason).desk := by
  refine @Acts.closed s _ (fun _ e => (closeConn e 0 reason).conn.closeCall) fun handle => ?_
  rw [closeAll, Table.lookup_mapValues]
  cases s.conns.lookup handle with
  | none => rfl
  | some e =>
    simp only [Option.map_some, closeConn]
    split <;> rfl

/-- What is taken off the queue comes behind what is no longer there. -/
theorem popCurrent_split {queue rest : List Stamp} {found : Option Stamp}
    (h : s.popCurrent queue = (rest, found)) :
    ∃ stale, queue = stale ++ (found.toList ++ rest) ∧
      (∀ stamp ∈ stale, s.entryFor stamp.1 stamp.2 = none) ∧ (found = none → rest = []) := by
  induction queue with
  | nil =>
    cases h
    exact ⟨[], rfl, by simp, fun _ => rfl⟩
  | cons stamp queue ih =>
    obtain ⟨handle, epoch⟩ := stamp
    rw [popCurrent] at h
    split at h <;> rename_i hc
    · cases h
      exact ⟨[], rfl, by simp, by simp⟩
    · obtain ⟨stale, hqueue, hstale, hrest⟩ := ih h
      refine ⟨(handle, epoch) :: stale, by rw [hqueue, List.cons_append], ?_, hrest⟩
      simpa using ⟨by simpa using hc, by simpa using hstale⟩

/-- `accept` drops what is no longer there, and hands out what comes next. -/
theorem acceptCheck_ok {stamp : Stamp} (h : s.acceptCheck = (s', some (.ok stamp))) :
    ∃ stale rest e, s.acceptQueue = stale ++ stamp :: rest ∧
      (∀ stamp ∈ stale, s.entryFor stamp.1 stamp.2 = none) ∧
      s.entryFor stamp.1 stamp.2 = some e ∧ s' = { s with acceptQueue := rest } := by
  rw [acceptCheck] at h
  split at h <;> rename_i hp
  · cases h
    obtain ⟨stale, hqueue, hstale, -⟩ := popCurrent_split hp
    obtain ⟨e, he⟩ := popCurrent_current hp
    exact ⟨stale, _, e, hqueue, hstale, he, rfl⟩
  · split at h <;> cases h

/-- An `accept` that hands out nothing has found the queue without what is
    current. -/
theorem acceptCheck_acts {result : Option (Except Error Stamp)}
    (h : s.acceptCheck = (s', result)) (hr : ∀ stamp, result ≠ some (.ok stamp)) :
    s.Acts s'.desk := by
  rw [acceptCheck] at h
  split at h <;> rename_i hp
  · cases h
    exact absurd rfl (hr _)
  · cases h
    obtain ⟨stale, hqueue, hstale, hrest⟩ := popCurrent_split hp
    rw [hrest rfl] at hqueue ⊢
    refine .skipped fun stamp hmem => hstale stamp ?_
    simpa [hqueue] using hmem

/-- `accept_stream` hands out the head of a queue of its connection. -/
theorem acceptStreamCheck_ok {handle : ConnectionHandle} {epoch : ℕ} {dir : Dir} {id : StreamId}
    (h : s.acceptStreamCheck handle epoch dir = (s', some (.ok id))) :
    ∃ e rest, s.entryFor handle epoch = some e ∧ e.queue dir = id :: rest ∧
      s' = { s with conns := s.conns.insert handle (e.setQueue dir rest) } := by
  rw [acceptStreamCheck] at h
  split at h
  · cases h
  · rename_i e he
    split at h <;> rename_i hq
    · cases h
      exact ⟨e, _, he, hq, rfl⟩
    · cases herr : e.error <;> simp [herr] at h

/-- An `accept_stream` that hands out nothing changes nothing. -/
theorem acceptStreamCheck_eq {handle : ConnectionHandle} {epoch : ℕ} {dir : Dir}
    {result : Option (Except Error StreamId)}
    (h : s.acceptStreamCheck handle epoch dir = (s', result)) (hr : ∀ id, result ≠ some (.ok id)) :
    s' = s := by
  rw [acceptStreamCheck] at h
  split at h
  · cases h
    rfl
  · split at h <;> cases h
    · exact absurd rfl (hr _)
    · rfl

end State

/-! ## The steps -/

/-- A failing relay concerns no connection. -/
theorem Sys.FailsRelays.desk {s s' : Sys} (h : Sys.FailsRelays s s') : s'.st.desk = s.st.desk := by
  rw [FailsRelays] at h
  rw [h]
  rfl

/-- A step of the pump polls the connections, or may make one from a datagram. -/
theorem PumpStep.acts {s s' : Sys} (h : PumpStep s s') :
    (∃ polling, s.Drains s' polling) ∨ s.st.Acts s'.st.desk := by
  cases h with
  | drain hpc hd => exact .inl ⟨_, hpc, _, _, hd, rfl⟩
  | relaySendFailed =>
    refine .inr ?_
    split
    · exact .of_eq (s.failHome_fails _ _).desk
    · exact .rest
  | arm =>
    rw [Sys.foldl_spawnUpgrade_frame]
    exact .inr .rest
  | relaySignal =>
    rw [Sys.handleSignal_frame]
    exact .inr .rest
  | @relayDatagram _ _ source _ _ _ _ _ _ _ hd =>
    obtain ⟨s₁, addr, h₁, h₂⟩ := handleRelayDatagram_eq hd
    refine .inr (.congr ?_ ?_ (handleDatagram_acts (.relay source) rfl h₂))
    · rw [addrForPeer_frame h₁]
      rfl
    · rw [addrForPeer_frame h₁]
  | relayFailed => exact .inr (.of_eq (Sys.failReceive_fails _ _ _ _).desk)
  | udpReceived _ _ _ hd => exact .inr (handleDatagram_acts .udp rfl hd)
  | @channelDatagram id _ _ _ _ _ _ hd =>
    rcases handleChannelDatagram_cases hd with ⟨-, rfl⟩ | ⟨entry, s₁, addr, -, h₁, h₂⟩
    · exact .inr .rest
    · refine .inr (.congr ?_ ?_ (handleDatagram_acts (.channel id entry.peer) rfl h₂))
      · rw [addrForPeer_frame h₁]
        rfl
      · rw [addrForPeer_frame h₁]
  | channelFailed =>
    rw [retireChannel_frame]
    exact .inr .rest
  | redialFailed =>
    rw [Sys.failRedial]
    split <;> exact .inr .rest
  | tick => exact .inr (.of_eq (Sys.sweep_fails _ _ _).desk)
  | closeRelays =>
    rw [foldl_closeRelay]
    exact .inr .rest
  | closeWires =>
    rw [foldl_closeWire]
    exact .inr .rest
  | _ => exact .inr .rest

/-- A step of a `connect` call may dial a connection, or close one. -/
theorem ConnectStep.acts {s s' : Sys} (h : ConnectStep s s') : s.st.Acts s'.st.desk := by
  cases h with
  | found _ _ _ _ he | closed _ _ _ _ he | claimed _ _ _ _ he | shared _ _ _ _ he =>
    rw [ensureRelay_frame he]
    exact .rest
  | opened _ _ _ _ hr =>
    obtain ⟨-, -, rfl⟩ := registerRelay_eq hr
    exact .rest
  | dialFailed _ _ _ _ ha =>
    rw [dialAddr_frame ha]
    exact .rest
  | @dialed _ task _ _ _ _ remote handle _ _ _ _ hopen ha hd =>
    obtain ⟨s₁, _, h₁, rfl⟩ := dialed_eq hd
    obtain ⟨hfree, -, -, rfl⟩ := insertConn_eq h₁
    rw [dialAddr_frame ha] at hfree ⊢
    exact @Acts.inserted s.st handle (.dialed task.peer) remote hopen hfree (by simp [Origin.accepted])
  | failed | cancelParked => exact s.st.closeConnection_acts _ _ _ _
  | _ => exact .rest

/-- A step of a signaling session concerns no connection. -/
theorem SessionStep.desk {s s' : Sys} (h : SessionStep s s') : s'.st.desk = s.st.desk := by
  cases h with
  | begin _ _ _ hb =>
    obtain ⟨-, rfl⟩ := beginSignaling_eq hb
    rfl
  | receive =>
    rw [nextSignalCheck_frame]
    rfl
  | upgraded _ _ _ _ hr =>
    rw [registerChannel_frame hr]
    rfl
  | answered _ _ _ _ hr =>
    rw [registerChannel_frame hr]
    rfl
  | _ => rfl

/-- What a step does to the desk. -/
theorem Step.acts {s s' : Sys} (h : Step s s') :
    (∃ polling, s.Drains s' polling) ∨ (∃ stamp, s.Accepts s' stamp) ∨
      (∃ res dir id, s.AcceptsStream s' res dir id) ∨ s.st.Acts s'.st.desk := by
  cases h with
  | pump h => exact h.acts.imp_right fun h => .inr (.inr h)
  | connect h => exact .inr (.inr (.inr h.acts))
  | session h => exact .inr (.inr (.inr (.of_eq h.desk)))
  | accept hq hc hr => exact .inr (.inl ⟨_, _, _, _, hq, hc, hr, rfl⟩)
  | acceptClosed _ hc | acceptPark _ hc =>
    have hacts := acceptCheck_acts hc (by simp)
    exact .inr (.inr (.inr hacts))
  | @closeEndpoint reason =>
    refine .inr (.inr (.inr ?_))
    rw [State.closeEndpoint]
    split
    · exact .rest
    · exact s.st.closeAll_acts reason
  | closeConnection | dropConnection =>
    exact .inr (.inr (.inr (s.st.closeConnection_acts _ _ _ _)))
  | openStream _ _ hc =>
    rcases openStreamCheck_cases hc with rfl | rfl <;> exact .inr (.inr (.inr .rest))
  | @acceptStream rid res dir st result hq hr hc =>
    by_cases hid : ∃ id, result = some (.ok id)
    · obtain ⟨id, rfl⟩ := hid
      exact .inr (.inr (.inl ⟨res, dir, id, rid, st, hq, hr, hc, rfl⟩))
    · rw [acceptStreamCheck_eq hc (not_exists.1 hid)]
      exact .inr (.inr (.inr .rest))
  | _ => exact .inr (.inr (.inr .rest))

/-- A poll lets every entry hear the events of its own polling. -/
theorem Sys.Drains.hear {s s' : Sys} {polling : ConnectionHandle → Polling}
    (h : s.Drains s' polling) :
    s'.st.nextConnEpoch = s.st.nextConnEpoch ∧ s'.st.insertions = s.st.insertions ∧
      ∃ queued : ConnectionHandle → List Stamp,
        s'.st.acceptQueue = s.st.acceptQueue ++ s.st.conns.keys.flatMap queued ∧
        (∀ handle, s.st.conns.lookup handle = none → s'.st.conns.lookup handle = none) ∧
        ∀ handle e, s.st.conns.lookup handle = some e → ∃ e',
          e.hear handle (polling handle).events = some (e', queued handle) ∧
          s'.st.conns.lookup handle = some (e'.mark (polling handle).isDrained) := by
  obtain ⟨-, st, progressed, hd, rfl⟩ := h
  have hst : st.nextConnEpoch = s.st.nextConnEpoch ∧ st.insertions = s.st.insertions := by
    rw [drain_polls hd]
    exact ⟨rfl, rfl⟩
  have hhear := drain_hear hd
  dsimp only
  split <;> exact ⟨hst.1, hst.2, hhear⟩

/-- The connections that were made stay recorded. -/
theorem Step.insertions {s s' : Sys} (h : Step s s') :
    ∃ made, s'.st.insertions = s.st.insertions ++ made := by
  rcases h.acts with ⟨polling, hd⟩ | ⟨stamp, _, st, _, -, hc, -, rfl⟩ |
    ⟨res, dir, id, _, st, -, -, hc, rfl⟩ | hacts
  · exact ⟨[], by rw [hd.hear.2.1, List.append_nil]⟩
  · obtain ⟨_, _, _, -, -, -, rfl⟩ := acceptCheck_ok hc
    exact ⟨[], by simp⟩
  · obtain ⟨_, _, -, -, rfl⟩ := acceptStreamCheck_ok hc
    exact ⟨[], by simp⟩
  · generalize hd : s'.st.desk = d at hacts
    have hins : s'.st.insertions = d.insertions := congrArg Desk.insertions hd
    cases hacts with
    | inserted => exact ⟨_, hins⟩
    | _ => exact ⟨[], hins.trans (List.append_nil _).symm⟩

end IrohEndpoint
