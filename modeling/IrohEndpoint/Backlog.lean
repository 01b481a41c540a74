import Mathlib.Algebra.BigOperators.Group.Finset.Piecewise
import Mathlib.Algebra.Order.BigOperators.Group.Finset
import IrohEndpoint.Intake

/-!
# The accept backlog

An incoming connection counts towards the backlog from when it is made until
`accept` claims it: while its handshake is in flight it is counted in the table
of connections, and once it is connected in the queue. The bound is enforced when
a connection is made, and nothing that happens to it later adds to the count: a
completed handshake moves the connection from the table to the queue, and a
handshake that fails leaves the table's count.

noq is assumed not to report a connection as connected once it has reported its
loss, or drained it (`Sys.Orderly`).
-/

namespace IrohEndpoint

open Transition State

/-- An accepted connection whose handshake is in flight. -/
def ConnEntry.handshaking (e : ConnEntry) : Bool :=
  e.acceptedSide && !e.connected && e.error.isNone && !e.drained

/-- The backlog is the queue and the handshakes in flight. -/
theorem State.acceptBacklog_eq (s : State) :
    s.acceptBacklog = s.acceptQueue.length + s.conns.values.countP ConnEntry.handshaking := by
  rw [acceptBacklog, List.countP_eq_length_filter]
  rfl

/-! ## What noq promises -/

/-- noq reports a connection as connected only before it reports its loss, and
    before it drains it. -/
structure ConnEntry.Orderly (e : ConnEntry) (events : List Event) : Prop where
  late : e.conn.session = none → e.error ≠ none ∨ e.drained = true →
    ∀ session, Event.connected session ∉ events
  lost : ∀ before reason after, events = before ++ .connectionLost reason :: after →
    ∀ session, Event.connected session ∉ after

/-- A step in which noq keeps its promise for every connection that is polled. -/
def Sys.Orderly (s s' : Sys) : Prop :=
  (∃ polling, s.Drains s' polling) → ∃ polling, s.Drains s' polling ∧
    ∀ handle e, s.st.conns.lookup handle = some e → e.Orderly (polling handle).events

/-! ## The polling of a connection -/

/-- What an entry adds to the handshakes in flight. -/
def ConnEntry.weight (e : ConnEntry) : ℕ := if e.handshaking then 1 else 0

section Hear

variable {handle : ConnectionHandle} {e e' : ConnEntry} {event : Event} {events : List Event}
  {queued : List Stamp}

/-- noq's promise holds for the rest of the events. -/
theorem ConnEntry.Orderly.tail (h : e.Orderly (event :: events))
    (hh : e.Hearing handle event e' queued) : e'.Orderly events := by
  have hrest : ∀ before reason after, events = before ++ .connectionLost reason :: after →
      ∀ session, Event.connected session ∉ after :=
    fun before reason after heq => h.lost (event :: before) reason after (by rw [heq]; rfl)
  cases hh with
  | connected => exact ⟨by simp, hrest⟩
  | mismatch => exact ⟨by simp [onConnected.mismatch, NoqConnection.close], hrest⟩
  | lost => exact ⟨fun _ _ => h.lost [] _ events rfl, hrest⟩
  | other =>
    refine ⟨fun hs hd session hmem => ?_, hrest⟩
    exact h.late hs hd session (List.mem_cons_of_mem _ hmem)

/-- An event does not add to the backlog: a connection that is queued leaves the
    handshakes in flight. -/
theorem ConnEntry.Hearing.weight_le (hh : e.Hearing handle event e' queued)
    (horderly : e.Orderly (event :: events)) (hfresh : e.conn.session = none → e.connected = false) :
    queued.length + e'.weight ≤ e.weight := by
  cases hh with
  | connected hs =>
    have hclear : ¬(e.error ≠ none ∨ e.drained = true) := fun hd =>
      horderly.late hs hd _ List.mem_cons_self
    rw [not_or, not_not, Bool.not_eq_true] at hclear
    simp only [weight, handshaking, hfresh hs, hclear.1, hclear.2]
    cases e.acceptedSide <;> simp
  | mismatch => simp [weight, handshaking, onConnected.mismatch]
  | lost => simp [weight, handshaking]
  | other => simp [weight, handshaking]

/-- An entry without a session is not connected. -/
theorem ConnEntry.Hearing.fresh (hh : e.Hearing handle event e' queued)
    (hfresh : e.conn.session = none → e.connected = false) :
    e'.conn.session = none → e'.connected = false := by
  cases hh with
  | connected => simp
  | mismatch => simp [onConnected.mismatch, NoqConnection.close]
  | lost | other => exact hfresh

/-- A connection that is queued is connected, and what is connected stays so. -/
theorem ConnEntry.Hearing.connected_of (hh : e.Hearing handle event e' queued)
    (h : e.connected = true ∨ queued ≠ []) : e'.connected = true := by
  cases hh with
  | connected => rfl
  | mismatch | lost | other => exact h.resolve_right (by simp)

/-- The events of a connection do not add to the backlog. -/
theorem ConnEntry.hear_weight (h : e.hear handle events = some (e', queued))
    (horderly : e.Orderly events) (hfresh : e.conn.session = none → e.connected = false) :
    queued.length + e'.weight ≤ e.weight := by
  induction events generalizing e queued with
  | nil =>
    cases h
    simp
  | cons event events ih =>
    obtain ⟨e₁, queued₁, queued', hh, hrest, rfl⟩ := hear_cases h
    have hone := hh.weight_le horderly hfresh
    have hmore := ih hrest (horderly.tail hh) (hh.fresh hfresh)
    rw [List.length_append]
    omega

/-- A connection that was queued is connected. -/
theorem ConnEntry.hear_connected (h : e.hear handle events = some (e', queued))
    (hc : e.connected = true ∨ queued ≠ []) : e'.connected = true := by
  induction events generalizing e queued with
  | nil =>
    cases h
    exact hc.resolve_right (by simp)
  | cons event events ih =>
    obtain ⟨e₁, queued₁, queued', hh, hrest, rfl⟩ := hear_cases h
    refine ih hrest ?_
    by_cases hq : queued' = []
    · refine .inl (hh.connected_of (hc.imp_right fun hne => ?_))
      simpa [hq] using hne
    · exact .inr hq

/-- Marking a connection does not add to the backlog. -/
theorem ConnEntry.mark_weight (e : ConnEntry) (isDrained : Bool) :
    (e.mark isDrained).weight ≤ e.weight := by
  cases isDrained with
  | false => simp [mark, weight, handshaking]
  | true => simp [mark, weight, handshaking]

end Hear

/-! ## The count -/

/-- What a slot adds to the handshakes in flight. -/
def State.weight (s : State) (handle : ConnectionHandle) : ℕ :=
  if (s.conns.lookup handle).any ConnEntry.handshaking then 1 else 0

section Count

variable {s s' : State}

/-- What a slot with an entry adds. -/
theorem State.weight_of_lookup {handle : ConnectionHandle} {e : ConnEntry}
    (h : s.conns.lookup handle = some e) : s.weight handle = e.weight := by
  rw [weight, h, Option.any_some, ConnEntry.weight]

/-- The backlog is counted slot by slot, over any slots that include those in use. -/
theorem State.acceptBacklog_sum (s : State) (handles : Finset ConnectionHandle)
    (h : ∀ handle, (s.conns.lookup handle).isSome → handle ∈ handles) :
    s.acceptBacklog = s.acceptQueue.length + ∑ handle ∈ handles, s.weight handle := by
  rw [acceptBacklog_eq, Table.countP_values _ _ h]
  rfl

/-- The slots in use in one of two states. -/
def State.slots (s s' : State) : Finset ConnectionHandle :=
  s.conns.keys.toFinset ∪ s'.conns.keys.toFinset

theorem State.mem_slots_left {handle : ConnectionHandle} (h : (s.conns.lookup handle).isSome) :
    handle ∈ slots s s' :=
  Finset.mem_union_left _ (List.mem_toFinset.2 (AList.mem_keys.1 (AList.lookup_isSome.1 h)))

theorem State.mem_slots_right {handle : ConnectionHandle} (h : (s'.conns.lookup handle).isSome) :
    handle ∈ slots s s' :=
  Finset.mem_union_right _ (List.mem_toFinset.2 (AList.mem_keys.1 (AList.lookup_isSome.1 h)))

/-- The backlog grows by at most what one slot adds more than before, and the queue
    has more. -/
theorem State.acceptBacklog_le {handle : ConnectionHandle} {n m : ℕ}
    (hqueue : s'.acceptQueue.length + m ≤ s.acceptQueue.length)
    (hslot : s'.weight handle ≤ s.weight handle + n)
    (hother : ∀ handle' ≠ handle, s'.weight handle' ≤ s.weight handle') :
    s'.acceptBacklog + m ≤ s.acceptBacklog + n := by
  have hsum : ∑ handle' ∈ slots s s', s'.weight handle' ≤
      ∑ handle' ∈ slots s s', (s.weight handle' + if handle' = handle then n else 0) := by
    refine Finset.sum_le_sum fun handle' _ => ?_
    by_cases hh : handle' = handle
    · simpa [hh] using hslot
    · simpa [hh] using hother handle' hh
  have hone : ∑ handle' ∈ slots s s', (if handle' = handle then n else 0) ≤ n := by
    rw [Finset.sum_ite_eq']
    split
    · exact le_refl n
    · exact Nat.zero_le n
  rw [Finset.sum_add_distrib] at hsum
  rw [s.acceptBacklog_sum (slots s s') fun _ => mem_slots_left,
    s'.acceptBacklog_sum (slots s s') fun _ => mem_slots_right]
  omega

end Count

/-! ## The steps -/

/-- A handshake in flight under `handle` fails between `s` and `s'`. -/
def State.Fails (handle : ConnectionHandle) (s s' : State) : Prop :=
  ∃ e e', s.conns.lookup handle = some e ∧ e.handshaking = true ∧
    s'.conns.lookup handle = some e' ∧ e'.epoch = e.epoch ∧ e'.connected = false ∧
    e'.handshaking = false

/-- No handshake fails if every entry adds what it added before. -/
theorem State.not_fails {s s' : State} {handle : ConnectionHandle}
    (h : ∀ e e', s.conns.lookup handle = some e → s'.conns.lookup handle = some e' →
      e'.epoch = e.epoch → e'.handshaking = e.handshaking) : ¬Fails handle s s' := by
  rintro ⟨e, e', hl, hh, hl', hep, -, hh'⟩
  rw [h e e' hl hl' hep, hh] at hh'
  cases hh'

/-- Polling the connections does not add to the backlog, and a handshake that fails
    leaves it. -/
theorem Sys.Drains.backlog {s s' : Sys} {polling : ConnectionHandle → Polling}
    (hs : endpoint.Reachable s) (hd : s.Drains s' polling)
    (horderly : ∀ handle e, s.st.conns.lookup handle = some e → e.Orderly (polling handle).events) :
    s'.st.acceptBacklog ≤ s.st.acceptBacklog ∧
      ∀ handle, State.Fails handle s.st s'.st → s'.st.acceptBacklog < s.st.acceptBacklog := by
  obtain ⟨-, -, queued, hqueue, habsent, hheard⟩ := hd.hear
  -- Slot by slot, what is queued was in its handshake before.
  have hslot : ∀ handle ∈ s.st.conns.keys.toFinset,
      (queued handle).length + s'.st.weight handle ≤ s.st.weight handle := by
    intro handle hmem
    obtain ⟨e, hl⟩ := Option.isSome_iff_exists.1
      (AList.lookup_isSome.2 (AList.mem_keys.2 (List.mem_toFinset.1 hmem)))
    obtain ⟨e', hhear, hl'⟩ := hheard handle e hl
    rw [weight_of_lookup hl, weight_of_lookup hl']
    have hle := ConnEntry.hear_weight hhear (horderly handle e hl)
      ((ledger_inv hs).not_connected hl)
    have hmark := e'.mark_weight (polling handle).isDrained
    omega
  -- The backlog, summed over the slots of the table.
  have hsum : s'.st.acceptBacklog = s.st.acceptQueue.length +
      ∑ handle ∈ s.st.conns.keys.toFinset, ((queued handle).length + s'.st.weight handle) := by
    have hnodup : s.st.conns.keys.Nodup := s.st.conns.nodupKeys
    rw [s'.st.acceptBacklog_sum s.st.conns.keys.toFinset, hqueue, List.length_append,
      List.length_flatMap, ← List.sum_toFinset _ hnodup, Finset.sum_add_distrib, Nat.add_assoc]
    intro handle hsome
    rw [List.mem_toFinset, ← AList.mem_keys, ← AList.lookup_isSome, Option.isSome_iff_ne_none]
    intro hnone
    rw [habsent handle hnone] at hsome
    cases hsome
  have hold := s.st.acceptBacklog_sum s.st.conns.keys.toFinset fun handle hsome =>
    List.mem_toFinset.2 (AList.mem_keys.1 (AList.lookup_isSome.1 hsome))
  rw [hsum, hold]
  refine ⟨Nat.add_le_add_left (Finset.sum_le_sum hslot) _, ?_⟩
  rintro handle ⟨e, x, hl, hh, hx, -, hc, hh'⟩
  -- What has failed was not queued.
  have hmem : handle ∈ s.st.conns.keys.toFinset :=
    List.mem_toFinset.2 (AList.mem_keys.1 (AList.lookup_isSome.1 (by rw [hl]; rfl)))
  obtain ⟨e', hhear, hl'⟩ := hheard handle e hl
  cases Option.some.inj (hx.symm.trans hl')
  have hnil : queued handle = [] := by
    by_contra hne
    have hconn := ConnEntry.hear_connected hhear (.inr hne)
    exact Bool.false_ne_true (hc.symm.trans hconn)
  refine Nat.add_lt_add_left (Finset.sum_lt_sum hslot ⟨handle, hmem, ?_⟩) _
  rw [weight_of_lookup hl, weight_of_lookup hl', hnil, ConnEntry.weight, ConnEntry.weight, hh, hh']
  simp

/-- What a step does to the desk adds to the backlog only below the bound, and lets
    no handshake fail. -/
theorem State.Acts.backlog {s s' : State} (h : s.Acts s'.desk)
    (hlt : ∀ handle e, s.conns.lookup handle = some e → e.epoch < s.nextConnEpoch) :
    (s'.acceptBacklog ≤ s.acceptBacklog ∨
      s.acceptBacklog < acceptBacklogBound ∧ s'.acceptBacklog ≤ s.acceptBacklog + 1) ∧
      ∀ handle, ¬Fails handle s s' := by
  generalize hd : s'.desk = d at h
  have hconns : s'.conns = d.conns := congrArg Desk.conns hd
  have hqueue : s'.acceptQueue = d.acceptQueue := congrArg Desk.acceptQueue hd
  cases h with
  | rest | skipped =>
    replace hconns : s'.conns = s.conns := hconns
    refine ⟨.inl ?_, fun handle => not_fails fun e e' hl hl' _ => ?_⟩
    · refine @acceptBacklog_le s s' 0 0 0 ?_ ?_ fun _ _ => ?_
      · simp [hqueue, desk]
      all_goals simp [State.weight, hconns]
    · rw [hconns, hl] at hl'
      cases hl'
      rfl
  | closed hclosed =>
    replace hconns : ∀ handle, s'.conns.lookup handle = _ := fun handle => by
      rw [hconns, hclosed handle]
    have hweight : ∀ handle, s'.weight handle = s.weight handle := by
      intro handle
      rw [State.weight, State.weight, hconns]
      cases s.conns.lookup handle <;> rfl
    refine ⟨.inl ?_, fun handle => not_fails fun e e' hl hl' _ => ?_⟩
    · refine @acceptBacklog_le s s' 0 0 0 (by simp [hqueue, desk]) ?_ fun _ _ => ?_
      all_goals simp [hweight]
    · rw [hconns, hl] at hl'
      cases hl'
      rfl
  | @inserted handle origin remote hopen hfree hbound =>
    -- Only the slot of the new connection adds to the backlog.
    have hother : ∀ handle' ≠ handle, s'.conns.lookup handle' = s.conns.lookup handle' :=
      fun handle' hne => by rw [hconns, AList.lookup_insert_ne hne]
    have hnew : s'.weight handle = if origin.accepted then 1 else 0 := by
      rw [State.weight, hconns, AList.lookup_insert]
      cases origin.accepted <;> rfl
    have hle : s'.acceptBacklog + 0 ≤ s.acceptBacklog + if origin.accepted then 1 else 0 := by
      refine @acceptBacklog_le s s' handle _ 0 (by simp [hqueue, desk]) ?_ fun handle' hne => ?_
      · rw [hnew]
        exact Nat.le_add_left _ _
      · rw [State.weight, State.weight, hother handle' hne]
    refine ⟨?_, fun handle' => not_fails fun e e' hl hl' hep => ?_⟩
    · cases hside : origin.accepted with
      | false => exact .inl (by simpa [hside] using hle)
      | true => exact .inr ⟨hbound hside, by simpa [hside] using hle⟩
    · by_cases hh : handle' = handle
      · -- The new entry has a stamp of its own.
        rw [hh, hconns, AList.lookup_insert] at hl'
        cases hl'
        exact absurd hep (Nat.ne_of_gt (hlt handle' e hl))
      · rw [hother handle' hh, hl] at hl'
        cases hl'
        rfl

/-- An `accept` that returns a connection makes room for another. -/
theorem Sys.Accepts.backlog {s s' : Sys} {stamp : Stamp} (h : s.Accepts s' stamp) :
    s'.st.conns = s.st.conns ∧ s'.st.acceptBacklog < s.st.acceptBacklog := by
  obtain ⟨_, st, _, -, hc, -, rfl⟩ := h
  obtain ⟨stale, rest, e, hqueue, -, -, rfl⟩ := acceptCheck_ok hc
  refine ⟨rfl, Nat.lt_of_succ_le (@acceptBacklog_le s.st _ 0 0 1 ?_ ?_ fun _ _ => ?_)⟩
  · rw [hqueue, List.length_append, List.length_cons]
    exact Nat.le_add_left _ _
  · exact le_refl _
  · exact le_refl _

/-- Handing out a stream concerns no handshake. -/
theorem Sys.AcceptsStream.backlog {s s' : Sys} {res : ConnectionRes} {dir : Dir} {id : StreamId}
    (h : s.AcceptsStream s' res dir id) :
    s'.st.acceptBacklog ≤ s.st.acceptBacklog ∧ ∀ handle, ¬State.Fails handle s.st s'.st := by
  obtain ⟨_, st, -, -, hc, rfl⟩ := h
  obtain ⟨e, rest, he, -, rfl⟩ := acceptStreamCheck_ok hc
  obtain ⟨hl, -⟩ := entryFor_iff.1 he
  have hsame : (e.setQueue dir rest).handshaking = e.handshaking := by
    cases dir <;> rfl
  have hlookup : ∀ handle x, s.st.conns.lookup handle = some x → ∃ x',
      (s.st.conns.insert res.handle (e.setQueue dir rest)).lookup handle = some x' ∧
        x'.handshaking = x.handshaking := by
    intro handle x hx
    rw [Table.lookup_insert_eq]
    by_cases hh : handle = res.handle
    · rw [hh, hl] at hx
      cases hx
      exact ⟨_, if_pos hh, hsame⟩
    · exact ⟨x, by rw [if_neg hh, hx], rfl⟩
  refine ⟨@acceptBacklog_le s.st _ res.handle 0 0 (le_refl _) ?_ fun handle hne => ?_,
    fun handle => not_fails fun x x' hx hx' _ => ?_⟩
  · simp [State.weight, hl, hsame]
  · rw [State.weight, State.weight, AList.lookup_insert_ne hne]
  · obtain ⟨y, hy, hsame'⟩ := hlookup handle x hx
    cases Option.some.inj (hx'.symm.trans hy)
    exact hsame'

/-- A step adds to the backlog only below the bound, and a handshake that fails
    makes room for another connection. -/
theorem Step.backlog {s s' : Sys} (hs : endpoint.Reachable s) (h : Step s s')
    (ho : s.Orderly s') :
    (s'.st.acceptBacklog ≤ s.st.acceptBacklog ∨ s.st.acceptBacklog < acceptBacklogBound ∧
      s'.st.acceptBacklog ≤ s.st.acceptBacklog + 1) ∧
      ∀ handle, State.Fails handle s.st s'.st → s'.st.acceptBacklog < s.st.acceptBacklog := by
  rcases h.acts with hd | ⟨stamp, ha⟩ | ⟨res, dir, id, ha⟩ | hacts
  · obtain ⟨polling, hd, horderly⟩ := ho hd
    obtain ⟨hle, hfails⟩ := hd.backlog hs horderly
    exact ⟨.inl hle, hfails⟩
  · obtain ⟨hconns, hlt⟩ := ha.backlog
    refine ⟨.inl (Nat.le_of_lt hlt), fun handle hf => absurd hf (not_fails fun e e' hl hl' _ => ?_)⟩
    rw [hconns, hl] at hl'
    cases hl'
    rfl
  · obtain ⟨hle, hfails⟩ := ha.backlog
    exact ⟨.inl hle, fun handle hf => absurd hf (hfails handle)⟩
  · obtain ⟨hle, hfails⟩ := hacts.backlog fun handle e hl => (ledger_inv hs).entry_lt hl
    exact ⟨hle, fun handle hf => absurd hf (hfails handle)⟩

/-! ## The bound -/

/-- An incoming datagram reaches `handle_datagram` in the state `st`: from a relay,
    from the UDP socket, or from a channel. -/
inductive State.Arrives (s : State) :
    State → SocketAddr → Option EndpointId → Origin → Prop
  | relay {via : RelayKey} {source : EndpointId} {st : State} {addr : SocketAddr} :
      s.addrForPeer source via = .ok (st, addr) →
      Arrives s st addr (some source) (.relay source)
  | udp {remote : SocketAddr} : Arrives s s remote none .udp
  | channel {id : ChannelId} {entry : ChannelEntry} {st : State} {addr : SocketAddr} :
      s.channels.lookup id = some entry →
      s.addrForPeer entry.peer entry.fallbackRelay = .ok (st, addr) →
      Arrives s st addr (some entry.peer) (.channel id entry.peer)

/-- The endpoint answers an incoming attempt with the packet of a refusal, whatever
    noq would answer to an `accept`. -/
def State.Refuses (s : State) (addr : SocketAddr) (source : Option EndpointId) (origin : Origin)
    (refusal : Bytes) : Prop :=
  ∀ accepted, s.handleDatagram addr source origin (.newConnection refusal accepted) =
    .ok (s.pushResponse addr source refusal)

/-- The accept backlog is bounded. -/
structure Bounded (s : Sys) : Prop where
  bound : s.st.acceptBacklog ≤ acceptBacklogBound
  /-- An attempt that arrives on an open endpoint is refused exactly at the bound, -/
  refused : ∀ st addr source origin, s.st.Arrives st addr source origin → s.st.closed = false →
    ∀ refusal, st.Refuses addr source origin refusal ↔ s.st.acceptBacklog = acceptBacklogBound
  /-- and below the bound it is left to noq. -/
  admitted : ∀ st addr source origin, s.st.Arrives st addr source origin → s.st.closed = false →
    s.st.acceptBacklog < acceptBacklogBound → ∀ refusal handle,
    st.handleDatagram addr source origin (.newConnection refusal (.ok handle)) =
      (st.insertConn handle origin addr source true).map Prod.fst
  /-- An `accept` that returns a connection makes room for another attempt, -/
  accept : ∀ s' stamp, s.Accepts s' stamp → s'.st.acceptBacklog < acceptBacklogBound
  /-- and so does a handshake that fails. -/
  failed : ∀ s', Step s s' → s.Orderly s' → ∀ handle, State.Fails handle s.st s'.st →
    s'.st.acceptBacklog < acceptBacklogBound

/-- The backlog is the same when a datagram reaches `handle_datagram`. -/
theorem State.Arrives.backlog {s st : State} {addr : SocketAddr} {source : Option EndpointId}
    {origin : Origin} (h : s.Arrives st addr source origin) :
    st.acceptBacklog = s.acceptBacklog ∧ st.closed = s.closed := by
  cases h with
  | relay h | channel _ h =>
    rw [addrForPeer_frame h]
    exact ⟨rfl, rfl⟩
  | udp => exact ⟨rfl, rfl⟩

/-- A response is queued. -/
theorem State.pushResponse_ne (s : State) (addr : SocketAddr) (source : Option EndpointId)
    (payload : Bytes) : s.pushResponse addr source payload ≠ s := by
  intro h
  unfold pushResponse at h
  split at h
  · simpa using congrArg (fun s => s.relayOutbound.length) h
  · simpa using congrArg (fun s => s.channelOutbound.length) h
  · simpa using congrArg (fun s => s.udpOutbound.length) h

/-- In every run in which noq keeps its promise, the accept backlog is bounded. -/
theorem bounded_reachable {s : Sys} (hs : (endpoint.restrict Sys.Orderly).Reachable s) :
    Bounded s := by
  have hbound : s.st.acceptBacklog ≤ acceptBacklogBound := by
    refine hs.invariant (P := fun s => s.st.acceptBacklog ≤ acceptBacklogBound) ?_
      fun s s' hr hst hle => ?_
    · rintro _ ⟨config, webrtc, now, st, key, hr, rfl⟩
      obtain ⟨-, -, rfl⟩ := registerRelay_eq hr
      exact Nat.zero_le _
    · rcases (Step.backlog hr.of_restrict hst.1 hst.2).1 with hle' | ⟨hlt, hle'⟩
      · exact hle'.trans hle
      · exact hle'.trans hlt
  refine ⟨hbound, fun st addr source origin ha hopen refusal => ?_,
    fun st addr source origin ha hopen hlt refusal handle => ?_,
    fun s' stamp ha => lt_of_lt_of_le ha.backlog.2 hbound,
    fun s' hst ho handle hf =>
      lt_of_lt_of_le ((Step.backlog hs.of_restrict hst ho).2 handle hf) hbound⟩
  · obtain ⟨hbacklog, hclosed⟩ := ha.backlog
    constructor
    · -- Below the bound, the outcome would be that of `accept`.
      intro href
      refine le_antisymm hbound (Nat.le_of_not_lt fun hlt => ?_)
      have hnone := href (.error none)
      simp only [handleDatagram, hclosed, hopen, hbacklog] at hnone
      rw [if_neg (by simp), if_neg (Nat.not_le_of_lt hlt)] at hnone
      exact st.pushResponse_ne addr source refusal (Except.ok.inj hnone).symm
    · intro heq accepted
      simp only [handleDatagram, hclosed, hopen, hbacklog, heq]
      rw [if_neg (by simp), if_pos (le_refl _)]
  · obtain ⟨hbacklog, hclosed⟩ := ha.backlog
    simp only [handleDatagram, hclosed, hopen, hbacklog]
    rw [if_neg (by simp), if_neg (Nat.not_le_of_lt hlt)]
    cases st.insertConn handle origin addr source true <;> rfl

/-- A step that polls no connection. -/
theorem Sys.Still.orderly {s s' : Sys} (h : s.Still s') : s.Orderly s' := by
  rintro ⟨polling, hd⟩
  refine ⟨polling, hd, fun handle e hl => ?_⟩
  rw [h.unpolled hd.1] at hl
  cases hl

/-- A peer connects, and its handshake completes: it counts in the queue. -/
theorem bounded_handshake : ∃ s : Sys, s.st.acceptQueue = [(0, 0)] ∧ s.st.acceptBacklog = 1 ∧
    Bounded s := by
  have hidle : (endpoint.restrict Sys.Orderly).Reachable
      (Sys.idle (.relayOnly "https://home.example") false 0) :=
    (bound_reachable _ _ _ _).leads (System.Leads.weaken (fun _ _ h => h.orderly) (idle_leads _ _ _))
  have hdatagram := hidle.step ⟨.pump (@PumpStep.relayDatagram _ homeRelay ⟨0⟩
    (Vector.replicate 32 7) [] (.newConnection [] (.ok 0)) _ rfl rfl List.mem_cons_self rfl rfl),
    fun ⟨_, hd⟩ => nomatch hd.1⟩
  let session : CryptoSession := ⟨none, some (Vector.replicate 32 7)⟩
  let polling : ConnectionHandle → Polling := fun _ => ⟨[⟨0, [.connected session], []⟩], false⟩
  have hconnected := hdatagram.step ⟨.pump (@PumpStep.drain _ polling _ _ rfl rfl),
    fun _ => ⟨polling, ⟨rfl, _, _, rfl, by exact rfl⟩, fun handle e hl => ?_⟩⟩
  · exact ⟨_, rfl, rfl, bounded_reachable hconnected⟩
  · -- The connection is new, so it may be reported as connected.
    rcases Table.lookup_insert_some.1 hl with ⟨-, rfl⟩ | ⟨-, hl⟩
    · refine ⟨fun _ hended => absurd hended (by decide), fun before reason after heq => ?_⟩
      have hlost : Event.connectionLost reason ∈ (polling handle).events :=
        heq ▸ List.mem_append_right _ List.mem_cons_self
      cases List.mem_singleton.1 hlost
    · cases hl

end IrohEndpoint
