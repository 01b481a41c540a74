import IrohEndpoint.Drain
import IrohEndpoint.Ownership

/-!
# Operations parked on a dead connection

An operation whose connection has drained, or which outlives the pump, has
nothing left to wait for: its check should give a result (`Unparked`).

Most checks only look at the error of the connection, which is recorded when noq
reports its loss. noq may drain a connection that was closed locally without
reporting a loss, and the pump may leave its loop before a connection drains, so
that these checks park for good (`not_unparked_silent`). They do not in the runs in
which

* noq reports the loss of a connection no later than it drains it (`Sys.Notices`), and
* the pump leaves its loop only once every connection has failed,

for the connections that something still holds on to (`Sys.Heeds`,
`unparked_reachable`). A watch of the path looks for drained connections itself, and
needs no report.
-/

namespace IrohEndpoint

open Transition State

/-- The connection under a stamp has drained, or the pump has left its loop. -/
def Sys.Ended (s : Sys) (handle : ConnectionHandle) (epoch : ℕ) : Prop :=
  (∃ e, s.st.entryFor handle epoch = some e ∧ e.drained = true) ∨ s.pump.pc.left = true

/-- No operation parks on a connection that has ended, or past the pump, whatever
    noq answers to it. -/
structure Unparked (s : Sys) : Prop where
  connect : ∀ tid task handle epoch, s.connects.lookup tid = some task →
    task.phase = .parked handle epoch → s.Ended handle epoch →
    (s.st.connectCheck handle epoch).isSome
  accept : s.pump.pc.left = true → s.st.acceptCheck.2.isSome
  openStream : ∀ rid res, s.connections.lookup rid = some res → s.Ended res.handle res.epoch →
    ∀ kickedBlocked opened,
      (s.st.openStreamCheck res.handle res.epoch kickedBlocked opened).2.isSome
  acceptStream : ∀ rid res, s.connections.lookup rid = some res → s.Ended res.handle res.epoch →
    ∀ dir, (s.st.acceptStreamCheck res.handle res.epoch dir).2.isSome
  recvDatagram : ∀ rid res, s.connections.lookup rid = some res → s.Ended res.handle res.epoch →
    ∀ received, (s.st.recvDatagramCheck res.handle res.epoch received).isSome
  writeAll : ∀ stream ∈ s.streams, s.Ended stream.handle stream.epoch → ∀ answer len offset,
    (s.st.writeAllCheck stream.handle stream.epoch answer len offset).2.2.isSome
  readSome : ∀ stream ∈ s.streams, s.Ended stream.handle stream.epoch → ∀ answer,
    (s.st.readSomeCheck stream.handle stream.epoch answer).2.isSome
  waitClosed : ∀ rid res, s.connections.lookup rid = some res → s.Ended res.handle res.epoch →
    (s.st.waitClosedCheck res.handle res.epoch).isSome
  pathChanges : ∀ res ∈ s.watches, s.Ended res.handle res.epoch → ∀ known last,
    (s.st.pathChangesCheck res.handle res.epoch known last).isSome
  nextSignal : s.pump.pc.left = true → ∀ peer started now,
    (s.st.nextSignalCheck peer started now).2.isSome
  ensureRelay : s.pump.pc.left = true → ∀ normalized started now,
    (s.st.ensureRelayCheck normalized started now).isSome

/-! ## What a poll reports -/

/-- The entry does not accept the key of a handshake. -/
def ConnEntry.Refuses (e : ConnEntry) (session : CryptoSession) : Prop :=
  ∀ k, session.peerIdentity = some k → ∃ p, e.expectedPeer = some p ∧ k ≠ p

/-- The events report the loss of the connection, or a handshake with a key that
    is refused. -/
def ConnEntry.LostIn (e : ConnEntry) (events : List Event) : Prop :=
  (∃ reason, Event.connectionLost reason ∈ events) ∨
    ∃ session, Event.connected session ∈ events ∧ e.Refuses session

/-- The entry `e` became `e'` while its connection was polled: the events went by,
    and the connection may have drained. -/
structure ConnEntry.Hears (e : ConnEntry) (events : List Event) (isDrained : Bool)
    (e' : ConnEntry) : Prop where
  epoch : e'.epoch = e.epoch
  expectedPeer : e'.expectedPeer = e.expectedPeer
  drained : e'.drained = true → e.drained = true ∨ isDrained = true
  error : e'.error = none → e.error = none ∧ ¬e.LostIn events

/-- The connection under `handle` was polled. -/
structure Polled (handle : ConnectionHandle) (events : List Event) (isDrained : Bool)
    (s s' : State) : Prop where
  other : ∀ handle', handle' ≠ handle → s'.conns.lookup handle' = s.conns.lookup handle'
  queue : ∀ stamp ∈ s'.acceptQueue, stamp ∈ s.acceptQueue ∨
    stamp.1 = handle ∧ ∃ session, Event.connected session ∈ events
  entry : ∀ e', s'.conns.lookup handle = some e' →
    ∃ e, s.conns.lookup handle = some e ∧ e.Hears events isDrained e'

section Poll

variable {e e' e'' : ConnEntry} {events events' : List Event} {b b' : Bool}
  {handle : ConnectionHandle} {s s' s'' : State}

theorem ConnEntry.lostIn_append :
    e.LostIn (events ++ events') ↔ e.LostIn events ∨ e.LostIn events' := by
  simp only [LostIn, List.mem_append]
  grind

/-- No event reports a loss. -/
theorem ConnEntry.not_lostIn (hlost : ∀ reason, Event.connectionLost reason ∉ events)
    (hconn : ∀ session, Event.connected session ∉ events) : ¬e.LostIn events := by
  rintro (⟨reason, h⟩ | ⟨session, h, -⟩)
  · exact hlost reason h
  · exact hconn session h

theorem ConnEntry.Hears.trans (h : e.Hears events b e') (h' : e'.Hears events' b' e'') :
    e.Hears (events ++ events') (b || b') e'' where
  epoch := h'.epoch.trans h.epoch
  expectedPeer := h'.expectedPeer.trans h.expectedPeer
  drained := by
    intro hd
    rw [Bool.or_eq_true]
    rcases h'.drained hd with hd | hb
    · exact (h.drained hd).imp_right .inl
    · exact .inr (.inr hb)
  error := by
    intro hn
    obtain ⟨hn, hlost'⟩ := h'.error hn
    obtain ⟨hn, hlost⟩ := h.error hn
    refine ⟨hn, fun hl => (ConnEntry.lostIn_append.1 hl).elim hlost fun hl => hlost' ?_⟩
    -- Whether a key is refused depends on the expected peer only.
    simp only [ConnEntry.LostIn, ConnEntry.Refuses, h.expectedPeer] at hl ⊢
    exact hl

theorem Polled.refl (handle : ConnectionHandle) (s : State) : Polled handle [] false s s where
  other := fun _ _ => rfl
  queue := fun _ h => .inl h
  entry := fun e' hl => ⟨e', hl, rfl, rfl, .inl, fun hn => ⟨hn, ConnEntry.not_lostIn nofun nofun⟩⟩

theorem Polled.trans (h : Polled handle events b s s') (h' : Polled handle events' b' s' s'') :
    Polled handle (events ++ events') (b || b') s s'' where
  other := fun handle' hne => (h'.other handle' hne).trans (h.other handle' hne)
  queue := by
    intro stamp hq
    rcases h'.queue stamp hq with hq | ⟨hh, session, hmem⟩
    · exact (h.queue stamp hq).imp_right fun ⟨hh, session, hmem⟩ =>
        ⟨hh, session, List.mem_append_left _ hmem⟩
    · exact .inr ⟨hh, session, List.mem_append_right _ hmem⟩
  entry := by
    intro e'' hl''
    obtain ⟨e', hl', he'⟩ := h'.entry e'' hl''
    obtain ⟨e, hl, he⟩ := h.entry e' hl'
    exact ⟨e, hl, he.trans he'⟩

/-- Only the connection under `handle` changes, from `e` to `e'`. -/
theorem Polled.of_insert {queue : List (ConnectionHandle × ℕ)}
    (hl : s.conns.lookup handle = some e) (he : e.Hears events b e')
    (hq : ∀ stamp ∈ queue, stamp ∈ s.acceptQueue ∨
      stamp.1 = handle ∧ ∃ session, Event.connected session ∈ events) :
    Polled handle events b s
      { s with conns := s.conns.insert handle e', acceptQueue := queue } where
  other := fun _ hne => AList.lookup_insert_ne hne
  queue := hq
  entry := by
    intro x hx
    have hx' : (s.conns.insert handle e').lookup handle = some x := hx
    rw [AList.lookup_insert] at hx'
    cases hx'
    exact ⟨e, hl, he⟩

/-- `Connected` was polled: the handshake is accepted, or fails. -/
theorem onConnected_polled {conn : NoqConnection} {session : CryptoSession}
    (hl : s.conns.lookup handle = some e) :
    Polled handle [.connected session] false s { s with
      conns := s.conns.insert handle
        (onConnected { e with conn := conn } handle session s.acceptQueue).1
      acceptQueue := (onConnected { e with conn := conn } handle session s.acceptQueue).2 } := by
  rcases onConnected_cases { e with conn := conn } handle session s.acceptQueue with
    ⟨k, alpn, hk, hexp, heq⟩ | ⟨alpn, heq⟩ <;> rw [heq]
  · -- The handshake is accepted: its key is the expected one.
    refine .of_insert hl ⟨rfl, rfl, .inl, fun hn => ⟨hn, ?_⟩⟩ fun stamp hq => ?_
    · rintro (⟨reason, h⟩ | ⟨session', h, href⟩)
      · cases List.mem_singleton.1 h
      · cases List.mem_singleton.1 h
        obtain ⟨p, hp, hne⟩ := href k hk
        exact hne (hexp p hp)
    · rcases List.mem_append.1 hq with hq | hq
      · exact .inl hq
      · split at hq
        · rw [List.mem_singleton.1 hq]
          exact .inr ⟨rfl, session, List.mem_singleton_self _⟩
        · exact absurd hq List.not_mem_nil
  · exact .of_insert hl ⟨rfl, rfl, .inl, nofun⟩ fun _ h => .inl h

/-- An event was polled. -/
theorem pollEvent_polled {event : Event} (h : pollEvent handle s event = .ok s') :
    Polled handle [event] false s s' := by
  rw [pollEvent] at h
  split at h <;> rename_i hl
  · cases h
    refine ⟨fun _ _ => rfl, fun _ h => .inl h, fun e' hl' => ?_⟩
    cases hl.symm.trans hl'
  · rename_i e
    cases event with
    | connected session =>
      rw [NoqConnection.emit] at h
      cases hs : e.conn.session with
      -- noq connects a connection once.
      | some _ =>
        rw [hs] at h
        cases h
      | none =>
        rw [hs] at h
        cases h
        exact onConnected_polled hl
    | connectionLost reason =>
      cases h
      exact .of_insert hl ⟨rfl, rfl, .inl, by simp⟩ fun _ h => .inl h
    | _ =>
      cases h
      exact .of_insert hl ⟨rfl, rfl, .inl, fun hn => ⟨hn, ConnEntry.not_lostIn (by simp) (by simp)⟩⟩
        fun _ h => .inl h

/-- A transmit was polled. -/
theorem routeTransmit_polled {transmit : SocketAddr × Bytes}
    (h : s.routeTransmit transmit = .ok s') : Polled handle [] false s s' := by
  have hsame : s'.conns = s.conns ∧ s'.acceptQueue = s.acceptQueue := by
    rw [routeTransmit] at h
    split at h
    · split at h <;> cases h
      exact ⟨rfl, rfl⟩
    · cases h
      exact ⟨rfl, rfl⟩
    · cases h
      exact ⟨rfl, rfl⟩
  have hrefl := Polled.refl handle s
  exact ⟨hsame.1 ▸ hrefl.other, hsame.2 ▸ hrefl.queue, hsame.1 ▸ hrefl.entry⟩

/-- The marking of a drained connection. -/
theorem markDrained_polled (s : State) (handle : ConnectionHandle) (isDrained : Bool) :
    Polled handle [] isDrained s (s.markDrained handle isDrained).1 := by
  have hrefl : Polled handle [] isDrained s s :=
    ⟨fun _ _ => rfl, fun _ h => .inl h, fun e' hl =>
      ⟨e', hl, rfl, rfl, .inl, fun hn => ⟨hn, ConnEntry.not_lostIn nofun nofun⟩⟩⟩
  rw [markDrained]
  split <;> rename_i hl
  · exact hrefl
  · split <;> rename_i hd
    · rw [Bool.and_eq_true] at hd
      exact .of_insert hl ⟨rfl, rfl, fun _ => .inr hd.2, fun hn =>
        ⟨hn, ConnEntry.not_lostIn nofun nofun⟩⟩ fun _ h => .inl h
    · exact hrefl

/-- Draining one connection. -/
theorem drainConn_polled {polling : ConnectionHandle → Polling} {acc acc' : State × Bool}
    (h : drainConn polling acc handle = .ok acc') :
    Polled handle (polling handle).events (polling handle).isDrained acc.1 acc'.1 := by
  obtain ⟨s₁, hpolled, hs⟩ := drainConn_trace (P := fun events => Polled handle events false)
    (Polled.refl handle) (fun _ _ _ _ _ => Polled.trans) (fun _ _ _ => pollEvent_polled)
    (fun _ _ _ => routeTransmit_polled) h
  rw [hs]
  have hconn := hpolled.trans (markDrained_polled s₁ handle (polling handle).isDrained)
  rwa [List.append_nil, Bool.false_or] at hconn

end Poll

/-- Draining the connections of the table: each is polled once. -/
theorem drain_hears {polling : ConnectionHandle → Polling} {s s' : State} {b : Bool}
    (h : s.drain polling = .ok (s', b)) :
    (∀ handle e', s'.conns.lookup handle = some e' → ∃ e, s.conns.lookup handle = some e ∧
      e.Hears (polling handle).events (polling handle).isDrained e') ∧
    ∀ stamp ∈ s'.acceptQueue, stamp ∈ s.acceptQueue ∨
      ∃ session, Event.connected session ∈ (polling stamp.1).events := by
  -- The keys that were gone through, each once, and the others.
  have hkeys := Except.foldlM_trace (R := fun (keys : List ConnectionHandle) (a a' : State × Bool) =>
    keys.Nodup →
      (∀ handle, handle ∉ keys → a'.1.conns.lookup handle = a.1.conns.lookup handle) ∧
      (∀ handle ∈ keys, ∀ e', a'.1.conns.lookup handle = some e' →
        ∃ e, a.1.conns.lookup handle = some e ∧
          e.Hears (polling handle).events (polling handle).isDrained e') ∧
      ∀ stamp ∈ a'.1.acceptQueue, stamp ∈ a.1.acceptQueue ∨
        ∃ session, Event.connected session ∈ (polling stamp.1).events)
    (fun a _ => ⟨fun _ _ => rfl, nofun, fun _ hq => .inl hq⟩) ?_ h
  · obtain ⟨hout, hin, hqueue⟩ := hkeys s.conns.nodupKeys
    refine ⟨fun handle e' hl => ?_, hqueue⟩
    by_cases hmem : handle ∈ s.conns.keys
    · exact hin handle hmem e' hl
    · have hnone : s.conns.lookup handle = none := AList.lookup_eq_none.2 (mt AList.mem_keys.1 hmem)
      cases hnone.symm.trans ((hout handle hmem).symm.trans hl)
  · intro handle keys a₁ a₂ a₃ ha ih hnodup
    obtain ⟨hne, hnodup⟩ := List.nodup_cons.1 hnodup
    have hp := drainConn_polled ha
    obtain ⟨hout, hin, hqueue⟩ := ih hnodup
    refine ⟨fun handle' hmem => ?_, fun handle' hmem e' hl => ?_, fun stamp hq => ?_⟩
    · obtain ⟨h₁, h₂⟩ := not_or.1 (mt List.mem_cons.2 hmem)
      exact (hout handle' h₂).trans (hp.other handle' h₁)
    · -- The connection is polled now, or was polled among the others.
      rcases List.mem_cons.1 hmem with rfl | hmem
      · rw [hout handle' hne] at hl
        exact hp.entry e' hl
      · obtain ⟨e, hl, he⟩ := hin handle' hmem e' hl
        have hne' : handle' ≠ handle := fun h => hne (h ▸ hmem)
        exact ⟨e, (hp.other handle' hne') ▸ hl, he⟩
    · rcases hqueue stamp hq with hq | hq
      · exact (hp.queue stamp hq).imp_right fun ⟨hh, hmem⟩ => hh ▸ hmem
      · exact .inr hq

/-! ## The runs in which nothing parks for good -/

section Uses

variable {s : Sys} {handle : ConnectionHandle} {epoch : ℕ}

/-- What uses a stamp in the ledger was minted for it. -/
theorem Sys.uses_of_used (h : s.ledger.Used (handle, epoch)) : s.Uses handle epoch := by
  rcases h with ⟨peer, h⟩ | h | h | h
  · obtain ⟨tid, task, hl, hp, -⟩ := mem_guardsOf.1 h
    exact .guard hl hp
  · exact .queue h
  · obtain ⟨rid, ⟨_, _⟩, hl, hstamp⟩ := mem_resourcesOf.1 h
    cases hstamp
    exact .connection hl
  · obtain ⟨⟨_, _, _⟩, hmem, hstamp⟩ := List.mem_map.1 h
    cases hstamp
    exact .stream hmem

/-- What uses a stamp holds it. -/
theorem Sys.Uses.holds (h : s.Uses handle epoch) : s.Holds handle epoch := by
  cases h with
  | guard hl hp => exact .guard hl hp
  | queue h => exact .queue h
  | connection hl => exact .connection hl
  | stream h => exact .stream h

/-- What is held in the ledger was minted for its stamp. -/
theorem Sys.holds_of_held (h : s.ledger.Held (handle, epoch)) : s.Holds handle epoch := by
  rcases h with h | h
  · exact (Sys.uses_of_used h).holds
  · obtain ⟨⟨_, _⟩, hmem, hstamp⟩ := List.mem_map.1 h
    cases hstamp
    exact .watch hmem

end Uses

/-- In a poll, noq reports the loss of every connection that it has drained and
    that something other than a watch was minted for, or is handed by this poll. -/
def Sys.Reports (s : Sys) (polling : ConnectionHandle → Polling) : Prop :=
  ∀ handle e, s.st.conns.lookup handle = some e → e.error = none →
    e.drained = true ∨ (polling handle).isDrained = true →
    (s.Uses handle e.epoch ∨ ∃ session, Event.connected session ∈ (polling handle).events) →
    e.LostIn (polling handle).events

/-- In the step, a poll reports what it drains. -/
def Sys.Notices (s s' : Sys) : Prop :=
  (∃ polling, s.Drains s' polling) → ∃ polling, s.Drains s' polling ∧ s.Reports polling

/-- A step in which no connection ends unnoticed: a poll reports what it drains,
    and the pump leaves only if the connections that are held have failed. -/
structure Sys.Heeds (s s' : Sys) : Prop where
  drain : s.Notices s'
  leave : s.pump.pc = .check → s'.pump.pc = .leaving → ∀ handle e,
    s.st.conns.lookup handle = some e → s.Holds handle e.epoch → e.error ≠ none

/-- Every connection that has drained, and that something other than a watch was
    minted for, has failed. -/
def Sys.Noticed (s : Sys) : Prop :=
  ∀ handle e, s.st.conns.lookup handle = some e → s.ledger.Used (handle, e.epoch) →
    e.drained = true → e.error ≠ none

/-- Past the pump, every connection that something holds on to has failed. -/
def Sys.Abandoned (s : Sys) : Prop :=
  s.pump.pc.left = true → ∀ handle e, s.st.conns.lookup handle = some e →
    s.ledger.Held (handle, e.epoch) → e.error ≠ none

/-- A poll that reports what it drains leaves nothing unnoticed. -/
theorem Sys.Drains.noticed {s s' : Sys} {polling : ConnectionHandle → Polling}
    (hd : s.Drains s' polling) (hr : s.Reports polling) : s'.Noticed := by
  obtain ⟨-, st, progressed, hd, rfl⟩ := hd
  obtain ⟨hhears, hqueue⟩ := drain_hears hd
  have hconns : ∀ b : Bool, (if b then st.wakeWaiters else st).conns = st.conns ∧
      (if b then st.wakeWaiters else st).acceptQueue = st.acceptQueue := by
    intro b
    cases b <;> exact ⟨rfl, rfl⟩
  intro handle e' hl hused hdrained herr
  dsimp only at hl
  rw [(hconns _).1] at hl
  obtain ⟨e, hle, he⟩ := hhears handle e' hl
  obtain ⟨herr, hlost⟩ := he.error herr
  -- What the poll has queued was connected by it.
  have huses : s.Uses handle e.epoch ∨
      ∃ session, Event.connected session ∈ (polling handle).events := by
    rw [he.epoch] at hused
    rcases hused with h | h | h
    · exact .inl (Sys.uses_of_used (.inl h))
    · replace h : (handle, e.epoch) ∈ st.acceptQueue := (hconns _).2 ▸ h
      exact (hqueue _ h).imp_left .queue
    · exact .inl (Sys.uses_of_used (.inr (.inr h)))
  exact hlost (hr handle e hle herr (he.drained hdrained) huses)

/-- In every run whose polls report what they drain, nothing ends unnoticed. -/
theorem noticed_reachable {s : Sys} (hs : (endpoint.restrict Sys.Notices).Reachable s) :
    s.Noticed := by
  refine hs.invariant (P := Sys.Noticed) ?_ fun s s' hr hst hn => ?_
  · rintro _ ⟨config, webrtc, now, st, key, hr, rfl⟩
    obtain ⟨-, -, rfl⟩ := registerRelay_eq hr
    exact fun _ _ h => nomatch h
  · by_cases hd : ∃ polling, s.Drains s' polling
    · obtain ⟨polling, hd, hreports⟩ := hst.2 hd
      exact hd.noticed hreports
    · have hf := Ledger.resting_follows (Step.ledger hr.of_restrict (not_exists.1 hd) hst.1)
      intro handle e' hl' hused' hdrained
      rcases hf.entry handle e' hl' with ⟨e, hl, herr, hdr, hused, -⟩ | ⟨-, hdr⟩
      · rw [herr]
        exact hn handle e hl (hused hused') (hdr ▸ hdrained)
      · exact absurd (hdr.symm.trans hdrained) Bool.false_ne_true

/-- In every run in which the pump leaves only what has failed, nothing else is held past it. -/
theorem abandoned_reachable {s : Sys} (hs : (endpoint.restrict Sys.Heeds).Reachable s) :
    s.Abandoned := by
  refine hs.invariant (P := Sys.Abandoned) ?_ fun s s' hr hst ha hleft handle e' hl' hheld' => ?_
  · rintro _ ⟨config, webrtc, now, st, key, hr, rfl⟩ hleft
    cases hleft
  · obtain ⟨hst, hheeds⟩ := hst
    have hr := hr.of_restrict
    by_cases hd : ∃ polling, s.Drains s' polling
    · -- The pump polls in its loop.
      obtain ⟨polling, -, st, progressed, -, rfl⟩ := hd
      cases hleft
    · have hf := Ledger.resting_follows (Step.ledger hr (not_exists.1 hd) hst)
      rcases hf.entry handle e' hl' with ⟨e, hl, herr, -, -, hheld⟩ | ⟨hopen, -⟩
      · rw [herr]
        rcases hst.left hleft with hleft | ⟨hpc, hpc', -⟩
        · exact ha hleft handle e hl (hheld hheld')
        · exact hheeds.leave hpc hpc' handle e hl (Sys.holds_of_held (hheld hheld'))
      · -- A connection is not made on a closed endpoint.
        have hclosed := Step.closed_of_left hr hst hleft
        exact absurd (Eq.trans (Eq.symm hopen) hclosed) Bool.false_ne_true

section Lookup

variable {s : Sys} {handle : ConnectionHandle} {epoch : ℕ} {e : ConnEntry}

/-- What is looked up for an operation on a connection that has drained has failed. -/
theorem Sys.Noticed.entryFor (hn : s.Noticed) (huses : s.Uses handle epoch)
    (he : s.st.entryFor handle epoch = some e) (hd : e.drained = true) : e.error.isSome := by
  obtain ⟨hl, rfl⟩ := (entryFor_eq_some (h := s.holders)).1 he
  exact Option.isSome_iff_ne_none.2 (hn handle e hl huses.used hd)

/-- What is looked up past the pump has failed. -/
theorem Sys.Abandoned.entryFor (ha : s.Abandoned) (hholds : s.Holds handle epoch)
    (he : s.st.entryFor handle epoch = some e) (hleft : s.pump.pc.left = true) :
    e.error.isSome := by
  obtain ⟨hl, rfl⟩ := (entryFor_eq_some (h := s.holders)).1 he
  exact Option.isSome_iff_ne_none.2 (ha hleft handle e hl hholds.held)

/-- What is looked up for an operation on a connection that ended has failed. -/
theorem Sys.Ended.failed (hended : s.Ended handle epoch) (hn : s.Noticed) (ha : s.Abandoned)
    (huses : s.Uses handle epoch) (he : s.st.entryFor handle epoch = some e) :
    e.error.isSome := by
  rcases hended with ⟨e', he', hd⟩ | hleft
  · cases Option.some.inj (he.symm.trans he')
    exact hn.entryFor huses he hd
  · exact ha.entryFor huses.holds he hleft

/-- What is looked up for a watch has drained, or has failed. -/
theorem Sys.Ended.drained (hended : s.Ended handle epoch) (ha : s.Abandoned)
    (hholds : s.Holds handle epoch) (he : s.st.entryFor handle epoch = some e) :
    (e.drained || e.error.isSome) = true := by
  rw [Bool.or_eq_true]
  rcases hended with ⟨e', he', hd⟩ | hleft
  · cases Option.some.inj (he.symm.trans he')
    exact .inl hd
  · exact .inr (ha.entryFor hholds he hleft)

end Lookup

/-! ### The checks on a connection that has failed -/

section Failed

variable {s : State} {handle : ConnectionHandle} {epoch : ℕ}
  (h : ∀ {e : ConnEntry}, s.entryFor handle epoch = some e → e.error.isSome)
include h

theorem connectCheck_isSome : (s.connectCheck handle epoch).isSome := by
  rw [connectCheck]
  split
  · rfl
  · rename_i he
    obtain ⟨err, herr⟩ := Option.isSome_iff_exists.1 (h he)
    rw [herr]
    rfl

theorem openStreamCheck_isSome (kickedBlocked : Bool) (opened : Option StreamId) :
    (s.openStreamCheck handle epoch kickedBlocked opened).2.isSome := by
  rw [openStreamCheck]
  split
  · rfl
  · rename_i he
    obtain ⟨err, herr⟩ := Option.isSome_iff_exists.1 (h he)
    rw [herr]
    rfl

theorem acceptStreamCheck_isSome (dir : Dir) :
    (s.acceptStreamCheck handle epoch dir).2.isSome := by
  rw [acceptStreamCheck]
  split
  · rfl
  · rename_i he
    split
    · rfl
    · rw [Option.isSome_map]
      exact h he

theorem recvDatagramCheck_isSome (received : Option Bytes) :
    (s.recvDatagramCheck handle epoch received).isSome := by
  rw [recvDatagramCheck]
  split
  · rfl
  · rename_i he
    split
    · rfl
    · rw [Option.isSome_map]
      exact h he

theorem writeAllCheck_isSome (answer : ℕ → WriteAnswer) (len offset : ℕ) :
    (s.writeAllCheck handle epoch answer len offset).2.2.isSome := by
  rw [writeAllCheck]
  split
  · rfl
  · rename_i he
    obtain ⟨err, herr⟩ := Option.isSome_iff_exists.1 (h he)
    rw [herr]
    rfl

theorem readSomeCheck_isSome (answer : ReadAnswer) :
    (s.readSomeCheck handle epoch answer).2.isSome := by
  rw [readSomeCheck]
  split
  · rfl
  · rename_i he
    cases answer with
    | blocked =>
      dsimp only
      rw [Option.isSome_map]
      exact h he
    | _ => rfl

theorem waitClosedCheck_isSome : (s.waitClosedCheck handle epoch).isSome := by
  rw [waitClosedCheck]
  split
  · rfl
  · rename_i he
    rw [h he, Bool.or_true, if_pos rfl]
    rfl

end Failed

/-- A watch of the path ends with its connection. -/
theorem pathChangesCheck_isSome {s : State} {handle : ConnectionHandle} {epoch : ℕ}
    (h : ∀ {e : ConnEntry}, s.entryFor handle epoch = some e →
      (e.drained || e.error.isSome) = true)
    (known : Bool) (last : Option PathKind) :
    (s.pathChangesCheck handle epoch known last).isSome := by
  rw [pathChangesCheck]
  split
  · rfl
  · rename_i he
    rw [if_pos (h he)]
    rfl

/-! ### The checks on a closed endpoint -/

section Closed

variable {s : State} (h : s.closed = true)
include h

theorem acceptCheck_isSome : s.acceptCheck.2.isSome := by
  rw [acceptCheck]
  split
  · rfl
  · rw [h]
    rfl

theorem nextSignalCheck_isSome (peer : EndpointId) (started now : Instant) :
    (s.nextSignalCheck peer started now).2.isSome := by
  rw [nextSignalCheck, h]
  rfl

theorem ensureRelayCheck_isSome (normalized : String) (started now : Instant) :
    (s.ensureRelayCheck normalized started now).isSome := by
  rw [ensureRelayCheck, h]
  split
  · rfl
  · split <;> rfl

end Closed

/-- In every run whose steps let no connection end unnoticed, no operation parks on
    a connection that has ended, or past the pump. -/
theorem unparked_reachable {s : Sys} (hs : (endpoint.restrict Sys.Heeds).Reachable s) :
    Unparked s := by
  have hn : s.Noticed := noticed_reachable (hs.weaken fun _ _ h => h.drain)
  have ha := abandoned_reachable hs
  have hr := hs.of_restrict
  exact
    { connect := fun _ _ _ _ hl hp hended =>
        connectCheck_isSome (hended.failed hn ha (.guard hl hp))
      accept := fun hleft => acceptCheck_isSome (left_closed hr hleft)
      openStream := fun _ _ hl hended =>
        openStreamCheck_isSome (hended.failed hn ha (.connection hl))
      acceptStream := fun _ _ hl hended =>
        acceptStreamCheck_isSome (hended.failed hn ha (.connection hl))
      recvDatagram := fun _ _ hl hended =>
        recvDatagramCheck_isSome (hended.failed hn ha (.connection hl))
      writeAll := fun _ hmem hended => writeAllCheck_isSome (hended.failed hn ha (.stream hmem))
      readSome := fun _ hmem hended => readSomeCheck_isSome (hended.failed hn ha (.stream hmem))
      waitClosed := fun _ _ hl hended =>
        waitClosedCheck_isSome (hended.failed hn ha (.connection hl))
      pathChanges := fun _ hmem hended => pathChangesCheck_isSome (hended.drained ha (.watch hmem))
      nextSignal := fun hleft => nextSignalCheck_isSome (left_closed hr hleft)
      ensureRelay := fun hleft => ensureRelayCheck_isSome (left_closed hr hleft) }

/-- A step that polls no connection has nothing to report. -/
theorem Sys.Still.notices {s s' : Sys} (h : s.Still s') : s.Notices s' := by
  rintro ⟨polling, hd⟩
  refine ⟨polling, hd, fun handle e hl => ?_⟩
  rw [h.unpolled hd.1] at hl
  cases hl

/-- Nor does it leave the loop. -/
theorem Sys.Still.heeds {s s' : Sys} (h : s.Still s') : s.Heeds s' :=
  ⟨h.notices, fun _ hpc => absurd hpc h.stays⟩

/-- A dial fails, and noq reports it as it drains the connection: `connect` does not
    park on it. -/
theorem unparked_dial_lost : ∃ s : Sys, s.Ended 0 0 ∧
    s.st.connectCheck 0 0 = some (.error .closed) ∧ Unparked s := by
  have hrun : (endpoint.restrict Sys.Still).Leads _ Sys.dialed :=
    (idle_leads (.relayOnly "https://home.example") true 0).trans dialed_leads
  have hdialed : (endpoint.restrict Sys.Heeds).Reachable Sys.dialed :=
    (bound_reachable _ (.relayOnly "https://home.example") true 0).leads
      (hrun.weaken fun _ _ h => h.heeds)
  let polling : ConnectionHandle → Polling :=
    fun _ => ⟨[⟨0, [.connectionLost .locallyClosed], []⟩], true⟩
  have hreports : Sys.dialed.Reports polling :=
    fun _ _ _ _ _ _ => .inl ⟨_, List.mem_singleton_self _⟩
  have hlost := hdialed.step ⟨.pump (@PumpStep.drain _ polling _ _ rfl rfl),
    fun _ => ⟨polling, ⟨rfl, _, _, rfl, by exact rfl⟩, hreports⟩, fun h => nomatch h⟩
  exact ⟨_, .inl ⟨_, rfl, rfl⟩, rfl, unparked_reachable hlost⟩

/-- A connection that was accepted is closed by the application, and noq drains it
    without reporting a loss: `accept_bi` parks on it. -/
theorem not_unparked_silent : ∃ s : Sys, endpoint.Reachable s ∧
    s.connections.lookup 0 = some ⟨0, 0⟩ ∧ s.Ended 0 0 ∧
    (s.st.acceptStreamCheck 0 0 .bi).2 = none ∧ ¬Unparked s := by
  have hclosed := accepted_reachable.step (@Step.closeConnection _ 0 ⟨0, 0⟩ 0 [] rfl rfl)
  have hkicked := hclosed.step (.pump (.kicked rfl rfl rfl))
  have hdrained := hkicked.step (.pump (@PumpStep.drain _ (fun _ => ⟨[], true⟩) _ _ rfl rfl))
  refine ⟨_, hdrained, rfl, .inl ⟨_, rfl, rfl⟩, rfl, fun h => ?_⟩
  have hsome := h.acceptStream 0 ⟨0, 0⟩ rfl (.inl ⟨_, rfl, rfl⟩) .bi
  cases hsome

end IrohEndpoint
