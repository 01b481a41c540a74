import IrohEndpoint.Frame

/-!
# How a drain polls the connections

`drain` goes through the table of connections and polls each of them until it is
quiescent. What it does to one connection depends on that connection only: the
events of its polling go by one after the other, each changing the entry and
possibly queueing it for `accept` (`ConnEntry.hear`), and the entry is marked if
the connection is drained.

* `drainConn_trace`: what every event, every transmit and the marking do to the
  state, in the order of the polling, the polling of a connection does;
* `drain_hear`: every entry of the table has heard the events of its own polling,
  and the queue has grown by what was queued for each.
-/

namespace IrohEndpoint

open State

/-- The events that the polling of a connection goes through. -/
def Polling.events (p : Polling) : List Event :=
  (p.rounds.takeWhile Round.progressed).flatMap Round.events

/-! ## The polling of one connection -/

section Trace

variable {P : List Event → State → State → Prop} {handle : ConnectionHandle}
  (refl : ∀ s, P [] s s)
  (trans : ∀ events events' s₁ s₂ s₃, P events s₁ s₂ → P events' s₂ s₃ →
    P (events ++ events') s₁ s₃)
  (event : ∀ e s s', pollEvent handle s e = .ok s' → P [e] s s')
  (transmit : ∀ t s s', routeTransmit s t = .ok s' → P [] s s')
include refl trans event transmit

/-- One turn of polling goes through its events. -/
theorem drainRound_trace {s s' : State} {r : Round} (h : drainRound handle s r = .ok s') :
    P r.events s s' := by
  obtain ⟨s₁, h₁, h₂⟩ := Except.bind_eq_ok.1 h
  have hevents := Except.foldlM_trace (R := P) refl
    (fun e events _ _ _ he => trans [e] events _ _ _ (event e _ _ he)) h₁
  have htransmits := Except.foldlM_trace (R := fun _ => P []) refl
    (fun t _ _ _ _ ht => trans [] [] _ _ _ (transmit t _ _ ht)) h₂
  have hround := trans _ _ _ _ _ hevents htransmits
  rwa [List.append_nil] at hround

/-- The turns of polling go through their events, up to the first without
    progress. -/
theorem drainRounds_trace {rs : List Round} {s s' : State} {progressed : Bool}
    (h : drainRounds handle rs s = .ok (s', progressed)) :
    P ((rs.takeWhile Round.progressed).flatMap Round.events) s s' := by
  induction rs generalizing s progressed with
  | nil =>
    cases h
    exact refl _
  | cons r rs ih =>
    rw [drainRounds] at h
    split at h <;> rename_i hr
    · obtain ⟨s₁, h₁, h⟩ := Except.bind_eq_ok.1 h
      obtain ⟨⟨s₂, _⟩, h₂, h⟩ := Except.bind_eq_ok.1 h
      cases h
      rw [List.takeWhile_cons_of_pos hr, List.flatMap_cons]
      exact trans _ _ _ _ _ (drainRound_trace refl trans event transmit h₁) (ih h₂)
    · cases h
      rw [List.takeWhile_cons_of_neg hr]
      exact refl _

/-- Draining a connection goes through its events, and then marks it. -/
theorem drainConn_trace {polling : ConnectionHandle → Polling} {acc acc' : State × Bool}
    (h : drainConn polling acc handle = .ok acc') :
    ∃ s₁, P (polling handle).events acc.1 s₁ ∧
      acc'.1 = (s₁.markDrained handle (polling handle).isDrained).1 := by
  obtain ⟨⟨s₁, b₁⟩, h₁, h⟩ := Except.bind_eq_ok.1 h
  cases h
  exact ⟨s₁, drainRounds_trace refl trans event transmit h₁, rfl⟩

end Trace

/-! ## What an entry hears -/

/-- The effect of a list of events on an entry, and the stamps that are queued for
    `accept`; none if noq does not emit them. -/
def ConnEntry.hear (handle : ConnectionHandle) :
    ConnEntry → List Event → Option (ConnEntry × List (ConnectionHandle × ℕ))
  | e, [] => some (e, [])
  | e, event :: events =>
    (e.conn.emit event).bind fun conn =>
      let heard := onEvent { e with conn := conn } handle event []
      (hear handle heard.1 events).map fun rest => (rest.1, heard.2 ++ rest.2)

/-- The entry of a connection that may have drained. -/
def ConnEntry.mark (e : ConnEntry) (isDrained : Bool) : ConnEntry :=
  { e with drained := e.drained || isDrained }

namespace ConnEntry

variable {handle : ConnectionHandle} {e e' e'' : ConnEntry} {events events' : List Event}
  {queued queued' : List (ConnectionHandle × ℕ)}

/-- The first event, and then the others. -/
theorem hear_cons {event : Event} : e.hear handle (event :: events) = some (e', queued) ↔
    ∃ conn, e.conn.emit event = some conn ∧ ∃ queued',
      (onEvent { e with conn := conn } handle event []).1.hear handle events = some (e', queued') ∧
      queued = (onEvent { e with conn := conn } handle event []).2 ++ queued' := by
  rw [hear, Option.bind_eq_some_iff]
  refine exists_congr fun conn => and_congr_right fun _ => ?_
  rw [Option.map_eq_some_iff]
  constructor
  · rintro ⟨⟨x, queued'⟩, hrest, h⟩
    cases h
    exact ⟨queued', hrest, rfl⟩
  · rintro ⟨queued', hrest, rfl⟩
    exact ⟨_, hrest, rfl⟩

/-- Events are heard one after the other. -/
theorem hear_append (h : e.hear handle events = some (e', queued))
    (h' : e'.hear handle events' = some (e'', queued')) :
    e.hear handle (events ++ events') = some (e'', queued ++ queued') := by
  induction events generalizing e queued with
  | nil =>
    cases h
    exact h'
  | cons event events ih =>
    obtain ⟨conn, hconn, rest, hrest, rfl⟩ := hear_cons.1 h
    rw [List.cons_append]
    exact hear_cons.2 ⟨conn, hconn, _, ih hrest, List.append_assoc _ _ _⟩

end ConnEntry

/-- An event queues its connection behind the others. -/
theorem onEvent_queue (e : ConnEntry) (handle : ConnectionHandle) (event : Event)
    (queue : List (ConnectionHandle × ℕ)) : onEvent e handle event queue =
      ((onEvent e handle event []).1, queue ++ (onEvent e handle event []).2) := by
  cases event with
  | connected session =>
    simp only [onEvent]
    unfold onConnected
    cases session.handshakeData <;> cases session.peerIdentity <;> simp only [List.append_nil] <;>
      repeat' split <;> simp
  | _ => simp [onEvent]

/-- The ids that `streams().accept` yields for a direction at an event. -/
def Event.yields : Event → Dir → List StreamId
  | .streamOpened bi _, .bi => bi
  | .streamOpened _ uni, .uni => uni
  | _, _ => []

/-- What an event does to the entry of its connection: a handshake is surfaced, or
    refused, or the event is of another kind. -/
inductive ConnEntry.Hearing (handle : ConnectionHandle) (e : ConnEntry) :
    Event → ConnEntry → List (ConnectionHandle × ℕ) → Prop
  | connected {session : CryptoSession} {k : EndpointId} {alpn : Bytes} :
      e.conn.session = none →
      Hearing handle e (.connected session) { e with
        conn := { e.conn with session := some session }
        alpn := alpn
        peer := some k
        connected := true } (if e.acceptedSide then [(handle, e.epoch)] else [])
  | mismatch {session : CryptoSession} {alpn : Bytes} :
      e.conn.session = none →
      Hearing handle e (.connected session) (onConnected.mismatch { e with
        conn := { e.conn with session := some session }
        alpn := alpn }) []
  | lost {reason : ConnectionError} :
      Hearing handle e (.connectionLost reason) { e with
        error := some reason.recorded.1
        peerClose := reason.recorded.2.or e.peerClose } []
  /-- No other event changes more than the queues of streams. -/
  | other {event : Event} :
      (∀ session, event ≠ .connected session) → (∀ reason, event ≠ .connectionLost reason) →
      Hearing handle e event { e with
        biQueue := e.biQueue ++ event.yields .bi
        uniQueue := e.uniQueue ++ event.yields .uni } []

/-- An event that noq emits is heard in one of these ways. -/
theorem ConnEntry.hearing {handle : ConnectionHandle} {e : ConnEntry} {event : Event}
    {conn : NoqConnection} (h : e.conn.emit event = some conn) :
    e.Hearing handle event (onEvent { e with conn := conn } handle event []).1
      (onEvent { e with conn := conn } handle event []).2 := by
  have hother := @ConnEntry.Hearing.other handle e event
  cases event with
  | connected session =>
    rw [NoqConnection.emit] at h
    split at h <;> rename_i hs <;> cases h
    rcases onConnected_cases { e with conn := { e.conn with session := some session } } handle
      session [] with ⟨k, alpn, -, -, heq⟩ | ⟨alpn, heq⟩
    · rw [onEvent, heq]
      exact .connected hs
    · rw [onEvent, heq]
      exact .mismatch hs
  | connectionLost reason =>
    cases h
    exact .lost
  | streamOpened bi uni =>
    cases h
    exact .other (by simp) (by simp)
  | _ =>
    cases h
    simpa [Event.yields, onEvent] using hother (by simp) (by simp)

/-- The first event is heard in one of these ways, and then the others. -/
theorem ConnEntry.hear_cases {handle : ConnectionHandle} {e e' : ConnEntry} {event : Event}
    {events : List Event} {queued : List (ConnectionHandle × ℕ)}
    (h : e.hear handle (event :: events) = some (e', queued)) :
    ∃ e₁ queued₁ queued', e.Hearing handle event e₁ queued₁ ∧
      e₁.hear handle events = some (e', queued') ∧ queued = queued₁ ++ queued' := by
  obtain ⟨conn, hconn, queued', hrest, hqueued⟩ := hear_cons.1 h
  exact ⟨_, _, queued', hearing hconn, hrest, hqueued⟩

/-- The connection under `handle` went through its events. -/
structure Heard (handle : ConnectionHandle) (events : List Event) (s s' : State) : Prop where
  other : ∀ handle', handle' ≠ handle → s'.conns.lookup handle' = s.conns.lookup handle'
  absent : s.conns.lookup handle = none →
    s'.conns.lookup handle = none ∧ s'.acceptQueue = s.acceptQueue
  entry : ∀ e, s.conns.lookup handle = some e → ∃ e' queued,
    e.hear handle events = some (e', queued) ∧ s'.conns.lookup handle = some e' ∧
      s'.acceptQueue = s.acceptQueue ++ queued

section Heard

variable {handle : ConnectionHandle} {events events' : List Event} {s s' s'' : State}

/-- Nothing was polled. -/
theorem Heard.of_eq (hc : s'.conns = s.conns) (hq : s'.acceptQueue = s.acceptQueue) :
    Heard handle [] s s' where
  other := fun _ _ => by rw [hc]
  absent := fun h => ⟨by rw [hc, h], hq⟩
  entry := fun e h => ⟨e, [], rfl, by rw [hc, h], by rw [hq, List.append_nil]⟩

theorem Heard.trans (h : Heard handle events s s') (h' : Heard handle events' s' s'') :
    Heard handle (events ++ events') s s'' where
  other := fun handle' hne => (h'.other handle' hne).trans (h.other handle' hne)
  absent := by
    intro hn
    obtain ⟨hn', hq⟩ := h.absent hn
    obtain ⟨hn'', hq'⟩ := h'.absent hn'
    exact ⟨hn'', hq'.trans hq⟩
  entry := by
    intro e hl
    obtain ⟨e', queued, hear, hl', hq⟩ := h.entry e hl
    obtain ⟨e'', queued', hear', hl'', hq'⟩ := h'.entry e' hl'
    exact ⟨e'', _, ConnEntry.hear_append hear hear', hl'', by rw [hq', hq, List.append_assoc]⟩

/-- An event concerns the entry that is there, if noq emits it. -/
theorem pollEvent_cases {event : Event} (h : pollEvent handle s event = .ok s') :
    (s.conns.lookup handle = none ∧ s' = s) ∨
      ∃ e conn, s.conns.lookup handle = some e ∧ e.conn.emit event = some conn ∧
        s' = { s with
          conns := s.conns.insert handle (onEvent { e with conn := conn } handle event []).1
          acceptQueue :=
            s.acceptQueue ++ (onEvent { e with conn := conn } handle event []).2 } := by
  rw [pollEvent] at h
  split at h <;> rename_i hl
  · cases h
    exact .inl ⟨hl, rfl⟩
  · rename_i e
    split at h <;> rename_i hconn
    · cases h
    · rename_i conn
      rw [onEvent_queue] at h
      exact .inr ⟨e, conn, hl, hconn, (Except.ok.inj h).symm⟩

/-- An event was polled. -/
theorem pollEvent_heard {event : Event} (h : pollEvent handle s event = .ok s') :
    Heard handle [event] s s' := by
  rcases pollEvent_cases h with ⟨hl, rfl⟩ | ⟨e, conn, hl, hconn, rfl⟩
  · refine ⟨fun _ _ => rfl, fun _ => ⟨hl, rfl⟩, fun e he => ?_⟩
    cases hl.symm.trans he
  · refine ⟨fun _ hne => AList.lookup_insert_ne hne, fun hn => ?_, fun x hx => ?_⟩
    · cases hl.symm.trans hn
    · cases Option.some.inj (hl.symm.trans hx)
      refine ⟨_, _, ConnEntry.hear_cons.2 ⟨conn, hconn, [], rfl, rfl⟩, AList.lookup_insert _, ?_⟩
      rw [List.append_nil]

/-- A transmit was polled. -/
theorem routeTransmit_heard {transmit : SocketAddr × Bytes}
    (h : s.routeTransmit transmit = .ok s') : Heard handle [] s s' := by
  rw [routeTransmit] at h
  split at h
  · split at h <;> cases h
    exact .of_eq rfl rfl
  · cases h
    exact .of_eq rfl rfl
  · cases h
    exact .of_eq rfl rfl

/-- Marking a connection. -/
theorem markDrained_lookup (s : State) (handle handle' : ConnectionHandle) (isDrained : Bool) :
    (s.markDrained handle isDrained).1.conns.lookup handle' =
      if handle' = handle then (s.conns.lookup handle).map fun e => e.mark isDrained
      else s.conns.lookup handle' := by
  rw [markDrained]
  split <;> rename_i hl
  · split <;> rename_i hh
    · rw [hh, hl, Option.map_none]
    · rfl
  · rename_i e
    rw [hl, Option.map_some]
    split <;> rename_i hd
    · simp only [Bool.and_eq_true, Bool.not_eq_true'] at hd
      simp only [Table.lookup_insert_eq, ConnEntry.mark, hd.1, hd.2, Bool.or_true]
    · have hdrained : (e.drained || isDrained) = e.drained := by
        cases hde : e.drained <;> simp_all
      rw [ConnEntry.mark, hdrained]
      split <;> rename_i hh
      · rw [hh, hl]
      · rfl

/-- Marking a connection queues nothing. -/
theorem markDrained_queue (s : State) (handle : ConnectionHandle) (isDrained : Bool) :
    (s.markDrained handle isDrained).1.acceptQueue = s.acceptQueue := by
  rw [markDrained]
  split
  · rfl
  · split <;> rfl

/-- Draining a connection. -/
theorem drainConn_heard {polling : ConnectionHandle → Polling} {acc acc' : State × Bool}
    (h : drainConn polling acc handle = .ok acc') :
    (∀ handle', handle' ≠ handle → acc'.1.conns.lookup handle' = acc.1.conns.lookup handle') ∧
    (∀ e, acc.1.conns.lookup handle = some e → ∃ e' queued,
      e.hear handle (polling handle).events = some (e', queued) ∧
      acc'.1.conns.lookup handle = some (e'.mark (polling handle).isDrained) ∧
      acc'.1.acceptQueue = acc.1.acceptQueue ++ queued) := by
  obtain ⟨s₁, hheard, hs⟩ := drainConn_trace (fun _ => .of_eq rfl rfl)
    (fun _ _ _ _ _ => Heard.trans) (fun _ _ _ => pollEvent_heard)
    (fun _ _ _ => routeTransmit_heard) h
  rw [hs]
  refine ⟨fun handle' hne => ?_, fun e hl => ?_⟩
  · rw [markDrained_lookup, if_neg hne]
    exact hheard.other handle' hne
  · obtain ⟨e', queued, hear, hl', hq⟩ := hheard.entry e hl
    refine ⟨e', queued, hear, ?_, ?_⟩
    · rw [markDrained_lookup, if_pos rfl, hl', Option.map_some]
    · rw [markDrained_queue, hq]

end Heard

/-- Draining the connections of the table: every entry hears the events of its own
    polling, and what is queued for each is queued in the order of the table. -/
theorem drain_hear {polling : ConnectionHandle → Polling} {s s' : State} {b : Bool}
    (h : s.drain polling = .ok (s', b)) : ∃ queued : ConnectionHandle → List (ConnectionHandle × ℕ),
    s'.acceptQueue = s.acceptQueue ++ s.conns.keys.flatMap queued ∧
    (∀ handle, s.conns.lookup handle = none → s'.conns.lookup handle = none) ∧
    ∀ handle e, s.conns.lookup handle = some e → ∃ e',
      e.hear handle (polling handle).events = some (e', queued handle) ∧
      s'.conns.lookup handle = some (e'.mark (polling handle).isDrained) := by
  -- By induction on the keys, each gone through once.
  have hkeys := Except.foldlM_trace (R := fun (keys : List ConnectionHandle) (a a' : State × Bool) =>
    keys.Nodup → (∀ handle ∈ keys, (a.1.conns.lookup handle).isSome) →
      ∃ queued : ConnectionHandle → List (ConnectionHandle × ℕ),
      a'.1.acceptQueue = a.1.acceptQueue ++ keys.flatMap queued ∧
      (∀ handle ∉ keys, a'.1.conns.lookup handle = a.1.conns.lookup handle) ∧
      ∀ handle ∈ keys, ∀ e, a.1.conns.lookup handle = some e → ∃ e',
        e.hear handle (polling handle).events = some (e', queued handle) ∧
        a'.1.conns.lookup handle = some (e'.mark (polling handle).isDrained))
    (fun a _ _ => ⟨fun _ => [], by simp, by simp, by simp⟩) ?_ h
  · have hsome : ∀ handle ∈ s.conns.keys, (s.conns.lookup handle).isSome :=
      fun handle hmem => AList.lookup_isSome.2 (AList.mem_keys.2 hmem)
    obtain ⟨queued, hq, hout, hin⟩ := hkeys s.conns.nodupKeys hsome
    have habsent : ∀ {handle}, s.conns.lookup handle = none → handle ∉ s.conns.keys := by
      intro handle hn hmem
      simpa [hn] using hsome handle hmem
    refine ⟨queued, hq, fun handle hn => (hout handle (habsent hn)).trans hn, fun handle e hl => ?_⟩
    refine hin handle ?_ e hl
    exact AList.mem_keys.1 (AList.lookup_isSome.1 (by rw [hl]; rfl))
  · intro handle keys a₁ a₂ a₃ ha ih hnodup hsome
    obtain ⟨hne, hnodup⟩ := List.nodup_cons.1 hnodup
    obtain ⟨hother, hentry⟩ := drainConn_heard ha
    have hneq : ∀ handle' ∈ keys, handle' ≠ handle := fun handle' hmem h => hne (h ▸ hmem)
    have hkeep : ∀ handle' ∈ keys, a₂.1.conns.lookup handle' = a₁.1.conns.lookup handle' :=
      fun handle' hmem => hother handle' (hneq handle' hmem)
    obtain ⟨queued, hq, hout, hin⟩ := ih hnodup fun handle' hmem => by
      rw [hkeep handle' hmem]
      exact hsome handle' (List.mem_cons_of_mem _ hmem)
    obtain ⟨e, hl⟩ := Option.isSome_iff_exists.1 (hsome handle List.mem_cons_self)
    obtain ⟨e', queued₀, hear, hl', hq'⟩ := hentry e hl
    refine ⟨Function.update queued handle queued₀, ?_, fun handle' hmem => ?_,
      fun handle' hmem x hx => ?_⟩
    · have hsame : keys.flatMap (Function.update queued handle queued₀) = keys.flatMap queued :=
        List.flatMap_congr fun handle' hmem => Function.update_of_ne (hneq handle' hmem) _ _
      rw [hq, hq', List.flatMap_cons, Function.update_self, hsame, List.append_assoc]
    · obtain ⟨h₁, h₂⟩ := not_or.1 (mt List.mem_cons.2 hmem)
      exact (hout handle' h₂).trans (hother handle' h₁)
    · rcases List.mem_cons.1 hmem with rfl | hmem
      · cases Option.some.inj (hl.symm.trans hx)
        rw [Function.update_self, hout handle' hne]
        exact ⟨e', hear, hl'⟩
      · rw [Function.update_of_ne (hneq handle' hmem)]
        exact hin handle' hmem x (hkeep handle' hmem ▸ hx)

end IrohEndpoint
