import IrohEndpoint.Delivery
import IrohEndpoint.Reports

/-!
# What an acceptor is handed

`accept` skips the connections of its queue whose slot has been reused: an entry that stays in
its slot is handed out, also if the connection has ended while nobody had claimed it. Nothing
takes the entry of a connection out of the table but the next connection in its slot.

A run is recorded in the connections whose end noq has reported, and in what the `accept` calls
have returned (`Record`). Every such call returns an open connection exactly if no connection
that has ended is first in the queue at that moment (`accept_open_iff`); a peer that closes its
connection before it is claimed is what reaches the other case (`not_open_unclaimed`).

An entry shows that its connection has ended exactly if noq has reported it, unless the handshake
was refused (`Record.Inv`), and what was refused is not in the queue.
-/

namespace IrohEndpoint

open Transition State

/-! ## The record -/

/-- The event reports the end of the connection. -/
def Event.lost : Event → Bool
  | .connectionLost _ => true
  | _ => false

/-- noq reports the end of the connection: it is lost, or it has drained. -/
def Polling.ends (p : Polling) : Bool := p.events.any Event.lost || p.isDrained

/-- The connection is the first of the queue that is still in its slot. -/
def State.First (s : State) (stamp : Stamp) : Prop :=
  (s.acceptQueue.find? fun stamp => (s.entryFor stamp.1 stamp.2).isSome) = some stamp

/-- The connection is open: its `state` is, and its entry is current, is not drained and has no
    error. -/
structure State.IsOpen (s : State) (stamp : Stamp) : Prop where
  state : s.connectionState stamp.1 stamp.2 = .open
  entry : ∃ e, s.entryFor stamp.1 stamp.2 = some e ∧ e.drained = false ∧ e.error = none

/-- An `accept` that has returned a connection. -/
structure AcceptCall where
  /-- The connection that was returned. -/
  stamp : Stamp
  /-- The endpoint when it was looked for, and when it was returned. -/
  before : State
  after : State
  /-- The connections whose end noq had reported. -/
  ended : Set Stamp

/-- What noq has reported, and what the `accept` calls have returned. -/
structure Record where
  ended : Set Stamp
  calls : List AcceptCall

namespace Record

/-- Nothing was reported or returned yet. -/
def none : Record := ⟨∅, []⟩

/-- noq reports which of the connections in the table have ended. -/
def poll (d : Record) (s : State) (polling : ConnectionHandle → Polling) : Record :=
  { d with
    ended := d.ended ∪
      {stamp | (s.entryFor stamp.1 stamp.2).isSome ∧ (polling stamp.1).ends = true} }

/-- A connection is returned. -/
def accept (d : Record) (stamp : Stamp) (before after : State) : Record :=
  { d with calls := d.calls ++ [⟨stamp, before, after, d.ended⟩] }

end Record

/-- How a step brings the record up to date. -/
inductive Sys.Keeps (s s' : Sys) (d : Record) : Record → Prop
  | poll {polling : ConnectionHandle → Polling} :
      s.Drains s' polling → Keeps s s' d (d.poll s.st polling)
  | accept {stamp : Stamp} : s.Accepts s' stamp → Keeps s s' d (d.accept stamp s.st s'.st)
  | silent :
      (∀ polling, ¬s.Drains s' polling) → (∀ stamp, ¬s.Accepts s' stamp) → Keeps s s' d d

/-- The endpoint with the record of its run. -/
def accepting : System (Sys × Record) := endpoint.observe .none Sys.Keeps

/-- Every run has a record. -/
theorem accepting_total {s : Sys} (hs : endpoint.Reachable s) :
    ∃ d, accepting.Reachable (s, d) := by
  refine hs.observe fun s s' d _ => ?_
  by_cases hd : ∃ polling, s.Drains s' polling
  · exact ⟨_, .poll hd.choose_spec⟩
  · by_cases ha : ∃ stamp, s.Accepts s' stamp
    · exact ⟨_, .accept ha.choose_spec⟩
    · exact ⟨d, .silent (not_exists.1 hd) (not_exists.1 ha)⟩

/-! ## What an entry shows -/

/-- The handshake was not refused: it is not complete yet, or the connection is
    connected. -/
def ConnEntry.Unrefused (e : ConnEntry) : Prop := e.conn.session = none ∨ e.connected = true

section Hear

variable {handle : ConnectionHandle} {e e' : ConnEntry} {event : Event} {events : List Event}
  {queued : List Stamp}

/-- Of what is not refused, an event shows the end exactly if it reports it. -/
theorem ConnEntry.Hearing.ended (hh : e.Hearing handle event e' queued)
    (hfresh : e.conn.session = none → e.connected = false) (hu : e'.Unrefused) :
    e.Unrefused ∧ (e'.Ended ↔ e.Ended ∨ event.lost = true) := by
  cases hh with
  | connected hs => exact ⟨.inl hs, by simp [Ended, Event.lost]⟩
  | mismatch hs =>
    -- The handshake is complete, and the connection is not connected.
    have hnot := hfresh hs
    simp [Unrefused, onConnected.mismatch, NoqConnection.close, hnot] at hu
  | lost => exact ⟨hu, by simp [Ended, Event.lost]⟩
  | other _ hlost =>
    refine ⟨hu, ?_⟩
    cases event with
    | connectionLost reason => exact absurd rfl (hlost reason)
    | _ => simp [Ended, Event.lost]

/-- Of what is not refused, the events of a poll show the end exactly if one of them reports
    it. -/
theorem ConnEntry.hear_ended (h : e.hear handle events = some (e', queued))
    (hfresh : e.conn.session = none → e.connected = false) (hu : e'.Unrefused) :
    e.Unrefused ∧ (e'.Ended ↔ e.Ended ∨ events.any Event.lost = true) := by
  induction events generalizing e queued with
  | nil =>
    cases h
    exact ⟨hu, by simp⟩
  | cons event events ih =>
    obtain ⟨e₁, queued₁, queued', hh, hrest, rfl⟩ := hear_cases h
    obtain ⟨-, hfresh₁, -⟩ := hh.queues hfresh
    obtain ⟨hu₁, hrest⟩ := ih hrest hfresh₁
    obtain ⟨hu, hfirst⟩ := hh.ended hfresh hu₁
    exact ⟨hu, by rw [hrest, hfirst, or_assoc, List.any_cons, Bool.or_eq_true]⟩

end Hear

/-- The entries show the same. -/
structure ConnEntry.Shows (e e' : ConnEntry) : Prop where
  epoch : e'.epoch = e.epoch
  session : e'.conn.session = e.conn.session
  connected : e'.connected = e.connected
  drained : e'.drained = e.drained
  error : e'.error = e.error

theorem ConnEntry.Shows.refl (e : ConnEntry) : Shows e e := ⟨rfl, rfl, rfl, rfl, rfl⟩

/-! ## The entries and the record -/

/-- What the record and the entries have together. -/
structure Record.Inv (d : Record) (s : State) : Prop where
  /-- An entry that is not refused shows what noq has reported. -/
  shown : ∀ handle e, s.conns.lookup handle = some e → e.Unrefused →
    (e.Ended ↔ (handle, e.epoch) ∈ d.ended)
  /-- noq has reported nothing about a connection that it has not made. -/
  unused : ∀ stamp ∈ d.ended, stamp.2 < s.nextConnEpoch

namespace Record.Inv

variable {d d' : Record} {s s' : State}

/-- The entries may change in what they do not show. -/
theorem congr (hi : d.Inv s) (hended : d'.ended = d.ended)
    (hnext : s'.nextConnEpoch = s.nextConnEpoch)
    (hconns : ∀ handle e', s'.conns.lookup handle = some e' →
      ∃ e, s.conns.lookup handle = some e ∧ e.Shows e') : d'.Inv s' where
  shown := by
    intro handle e' hl' hu
    obtain ⟨e, hl, hs⟩ := hconns handle e' hl'
    have hshown := hi.shown handle e hl (by rwa [ConnEntry.Unrefused, ← hs.session, ← hs.connected])
    rwa [ConnEntry.Ended, hs.drained, hs.error, hs.epoch, hended]
  unused := by
    intro stamp hmem
    rw [hended] at hmem
    rw [hnext]
    exact hi.unused stamp hmem

/-- What a step does to the desk. -/
theorem acts (hi : d.Inv s) (h : s.Acts s'.desk) : d.Inv s' := by
  generalize hd : s'.desk = dk at h
  have hconns : s'.conns = dk.conns := congrArg Desk.conns hd
  have hnext : s'.nextConnEpoch = dk.nextConnEpoch := congrArg Desk.nextConnEpoch hd
  cases h with
  | rest | skipped =>
    refine hi.congr rfl hnext fun handle e hl => ⟨e, ?_, .refl e⟩
    rwa [hconns] at hl
  | closed hclosed =>
    refine hi.congr rfl hnext fun handle e' hl' => ?_
    rw [hconns, hclosed, Option.map_eq_some_iff] at hl'
    obtain ⟨e, hl, rfl⟩ := hl'
    exact ⟨e, hl, rfl, rfl, rfl, rfl, rfl⟩
  | inserted =>
    refine ⟨fun handle e hl hu => ?_, fun stamp hmem => ?_⟩
    · rw [hconns, Table.lookup_insert_eq] at hl
      split at hl
      · -- A connection that was just made has not ended, under a stamp that is new.
        cases hl
        have hnot : (handle, s.nextConnEpoch) ∉ d.ended :=
          fun hmem => absurd (hi.unused _ hmem) (lt_irrefl _)
        simpa [ConnEntry.Ended, ConnEntry.new] using hnot
      · exact hi.shown handle e hl hu
    · rw [hnext]
      exact Nat.lt_succ_of_lt (hi.unused stamp hmem)

/-- `accept_bi` and `accept_uni` change the queues of streams only. -/
theorem stream {s s' : Sys} {res : ConnectionRes} {dir : Dir} {id : StreamId} (hi : d.Inv s.st)
    (h : s.AcceptsStream s' res dir id) : d.Inv s'.st := by
  obtain ⟨_, st, -, -, hc, rfl⟩ := h
  obtain ⟨e, rest, he, -, rfl⟩ := acceptStreamCheck_ok hc
  refine hi.congr rfl rfl fun handle x hx => ?_
  rcases Table.lookup_insert_some.1 hx with ⟨rfl, rfl⟩ | ⟨-, hx⟩
  · exact ⟨e, (entryFor_iff.1 he).1, by cases dir <;> exact ⟨rfl, rfl, rfl, rfl, rfl⟩⟩
  · exact ⟨x, hx, .refl x⟩

/-- `accept` leaves the entries alone. -/
theorem accept {s s' : Sys} {stamp : Stamp} (hi : d.Inv s.st) (h : s.Accepts s' stamp) :
    (d.accept stamp s.st s'.st).Inv s'.st := by
  obtain ⟨_, st, _, -, hc, -, rfl⟩ := h
  obtain ⟨_, _, _, -, -, -, rfl⟩ := acceptCheck_ok hc
  exact hi.congr rfl rfl fun _ e hl => ⟨e, hl, .refl e⟩

/-- After a poll, the entries show what noq has reported in it. -/
theorem poll {s s' : Sys} {polling : ConnectionHandle → Polling} (hs : endpoint.Reachable s)
    (hi : d.Inv s.st) (hd : s.Drains s' polling) : (d.poll s.st polling).Inv s'.st := by
  have hledger := ledger_inv hs
  obtain ⟨hnext, -, queued, -, habsent, hheard⟩ := hd.hear
  refine ⟨fun handle e' hl' hu => ?_, fun stamp hmem => ?_⟩
  · cases hl : s.st.conns.lookup handle with
    | none => cases (habsent handle hl).symm.trans hl'
    | some e =>
      obtain ⟨e₁, hhear, hl₁⟩ := hheard handle e hl
      cases Option.some.inj (hl'.symm.trans hl₁)
      have hfresh := hledger.not_connected hl
      obtain ⟨hu₀, hended⟩ := ConnEntry.hear_ended hhear hfresh hu
      have hepoch : e₁.epoch = e.epoch := (ConnEntry.hear_queued hhear hfresh).1.epoch
      have hsome : (s.st.entryFor handle e.epoch).isSome = true := by
        rw [entryFor_iff.2 ⟨hl, rfl⟩]
        rfl
      have hmark : (e₁.mark (polling handle).isDrained).Ended ↔
          e₁.Ended ∨ (polling handle).isDrained = true := by
        simp [ConnEntry.Ended, ConnEntry.mark, or_right_comm]
      calc (e₁.mark (polling handle).isDrained).Ended
          ↔ (e.Ended ∨ (polling handle).events.any Event.lost = true) ∨
              (polling handle).isDrained = true := by rw [hmark, hended]
        _ ↔ e.Ended ∨ (polling handle).ends = true := by
            rw [or_assoc, Polling.ends, Bool.or_eq_true]
        _ ↔ (handle, e₁.epoch) ∈ (d.poll s.st polling).ended := by
            simp [Record.poll, hepoch, hi.shown handle e hl hu₀, hsome]
  · rw [hnext]
    rcases hmem with hmem | ⟨hsome, -⟩
    · exact hi.unused stamp hmem
    · obtain ⟨e, he⟩ := Option.isSome_iff_exists.1 hsome
      obtain ⟨hl, hepoch⟩ := entryFor_iff.1 he
      exact hepoch ▸ hledger.entry_lt hl

/-- A step brings the record up to date with the entries. -/
theorem step {s s' : Sys} (hs : endpoint.Reachable s) (hi : d.Inv s.st) (h : Step s s')
    (hk : s.Keeps s' d d') : d'.Inv s'.st := by
  cases hk with
  | poll hd => exact hi.poll hs hd
  | accept ha => exact hi.accept ha
  | silent hd ha =>
    rcases h.acts with ⟨polling, h⟩ | ⟨stamp, h⟩ | ⟨res, dir, id, h⟩ | hacts
    · exact absurd h (hd polling)
    · exact absurd h (ha stamp)
    · exact hi.stream h
    · exact hi.acts hacts

/-- The record and the entries, in every reachable state. -/
theorem reachable {x : Sys × Record} (h : accepting.Reachable x) : x.2.Inv x.1.st := by
  refine h.invariant (P := fun x => x.2.Inv x.1.st) ?_ fun x y hr hst hi =>
    hi.step hr.of_observe hst.1 hst.2
  rintro ⟨s, d⟩ ⟨⟨config, webrtc, now, st, key, hr, rfl⟩, rfl⟩
  obtain ⟨-, -, rfl⟩ := registerRelay_eq hr
  refine ⟨fun handle e hl => ?_, fun stamp hmem => absurd hmem (Set.notMem_empty _)⟩
  cases hl

end Record.Inv

/-! ## What is handed out -/

/-- What comes behind what is no longer there is first. -/
theorem State.first_of_split {s : State} {stale rest : List Stamp} {stamp : Stamp} {e : ConnEntry}
    (hqueue : s.acceptQueue = stale ++ stamp :: rest)
    (hstale : ∀ stamp ∈ stale, s.entryFor stamp.1 stamp.2 = none)
    (he : s.entryFor stamp.1 stamp.2 = some e) : s.First stamp := by
  rw [First, hqueue, List.find?_append, List.find?_eq_none.2 (by simpa using hstale),
    Option.none_or, List.find?_cons_of_pos (by rw [he]; rfl)]

/-- A connected entry is open until it has ended. -/
theorem State.isOpen_iff {s : State} {stamp : Stamp} {e : ConnEntry}
    (he : s.entryFor stamp.1 stamp.2 = some e) (hc : e.connected = true) :
    s.IsOpen stamp ↔ ¬e.Ended := by
  constructor
  · rintro ⟨-, x, hx, hdrained, herror⟩
    cases Option.some.inj (he.symm.trans hx)
    simp [ConnEntry.Ended, hdrained, herror]
  · intro hend
    obtain ⟨hdrained, herror⟩ := not_or.1 hend
    rw [Bool.not_eq_true] at hdrained
    rw [not_not] at herror
    exact ⟨by simp [connectionState, he, hdrained, herror, hc], e, he, hdrained, herror⟩

/-- An `accept` returns an open connection exactly if none that has ended is first. -/
theorem Sys.Accepts.open_iff {s s' : Sys} {stamp : Stamp} {d : Record}
    (hs : endpoint.Reachable s) (hi : d.Inv s.st) (h : s.Accepts s' stamp) :
    s'.st.IsOpen stamp ↔ ∀ stamp ∈ d.ended, ¬s.st.First stamp := by
  obtain ⟨_, st, _, -, hc, -, rfl⟩ := h
  obtain ⟨stale, rest, e, hqueue, hstale, he, rfl⟩ := acceptCheck_ok hc
  obtain ⟨hl, hepoch⟩ := entryFor_iff.1 he
  have hmem : stamp ∈ s.st.acceptQueue := by simp [hqueue]
  -- What is in the queue is connected, so its entry shows what noq has reported.
  have hconnected : e.connected = true := (ledger_inv hs).queued stamp hmem e ⟨hl, hepoch⟩
  have hshown : e.Ended ↔ stamp ∈ d.ended := by
    rw [hi.shown stamp.1 e hl (.inr hconnected), hepoch]
  have hfirst := first_of_split hqueue hstale he
  rw [isOpen_iff (s := { s.st with acceptQueue := rest }) he hconnected, hshown]
  constructor
  · intro hnot stamp' hended hfirst'
    cases Option.some.inj (hfirst.symm.trans hfirst')
    exact hnot hended
  · intro hnone hended
    exact hnone stamp hended hfirst

/-- In every run, an `accept` has returned an open connection exactly if no connection whose end
    noq had reported was the first of the queue that was still in its slot. -/
theorem accept_open_iff {s : Sys} {d : Record} (h : accepting.Reachable (s, d)) {call : AcceptCall}
    (hc : call ∈ d.calls) :
    call.after.IsOpen call.stamp ↔ ∀ stamp ∈ call.ended, ¬call.before.First stamp := by
  refine h.invariant (P := fun x => ∀ call ∈ x.2.calls, call.after.IsOpen call.stamp ↔
    ∀ stamp ∈ call.ended, ¬call.before.First stamp) ?_ ?_ call hc
  · rintro ⟨s, d⟩ ⟨-, rfl⟩ call hc
    exact absurd hc List.not_mem_nil
  · rintro ⟨s, d⟩ ⟨s', d'⟩ hr hst ih call hc
    have hk : s.Keeps s' d d' := hst.2
    cases hk with
    | poll | silent => exact ih call hc
    | accept ha =>
      rcases List.mem_append.1 hc with hc | hc
      · exact ih call hc
      · rw [List.mem_singleton.1 hc]
        exact ha.open_iff hr.of_observe (Record.Inv.reachable hr)

/-- The first connection of an endpoint is returned while it is open: it is the first of the
    queue, and noq has not reported its end. -/
theorem accept_open_queued : ∃ s d call, accepting.Reachable (s, d) ∧ call ∈ d.calls ∧
    call.after.IsOpen call.stamp ∧ call.before.First (0, 0) ∧ (0, 0) ∉ call.ended := by
  obtain ⟨d, hd⟩ := accepting_total queued_reachable
  have haccept : accepting.Reachable (Sys.accepted (Vector.replicate 32 7), d.accept (0, 0)
      (Sys.queued (Vector.replicate 32 7)).st (Sys.accepted (Vector.replicate 32 7)).st) :=
    hd.step ⟨@Step.accept _ 0 _ 0 0 0 rfl rfl rfl, .accept ⟨0, _, 0, rfl, rfl, rfl, rfl⟩⟩
  have hmem := List.mem_append_right d.calls (List.mem_singleton_self (⟨(0, 0),
    (Sys.queued (Vector.replicate 32 7)).st, (Sys.accepted (Vector.replicate 32 7)).st,
    d.ended⟩ : AcceptCall))
  have hopen : (Sys.accepted (Vector.replicate 32 7)).st.IsOpen (0, 0) :=
    ⟨rfl, _, rfl, rfl, rfl⟩
  exact ⟨_, _, _, haccept, hmem, hopen, rfl,
    fun hended => (accept_open_iff haccept hmem).1 hopen (0, 0) hended rfl⟩

/-- The endpoint at rest, once the peer of its first connection has closed it with the code 7
    while it waits to be accepted. -/
def Sys.unclaimed : Sys :=
  let s := Sys.queued (Vector.replicate 32 7)
  { s with
    st := { s.st with
      conns := AList.insert 0 { ConnEntry.first (Vector.replicate 32 7) with
        error := some .closed
        peerClose := some ⟨7, ""⟩ } ∅ } }

/-- A peer can close its connection before it is accepted. -/
theorem unclaimed_reachable : endpoint.Reachable Sys.unclaimed := by
  have htick := queued_reachable.step (.pump (@PumpStep.tick _ (fun _ => .healthy) none rfl rfl))
  have hlost := htick.step (.pump (@PumpStep.drain _
    (fun _ => ⟨[⟨0, [.connectionLost (.applicationClosed 7 [])], []⟩], false⟩) _ _ rfl rfl))
  have hselect := select_reachable hlost rfl rfl rfl rfl rfl rfl
  exact hselect.step (.pump (.suspend rfl rfl))

/-- `accept` returns that connection, and its `state` is `closed`. -/
theorem not_open_unclaimed : ∃ s d call, accepting.Reachable (s, d) ∧ call ∈ d.calls ∧
    call.after.connectionState call.stamp.1 call.stamp.2 = .closed ∧
    ¬call.after.IsOpen call.stamp := by
  obtain ⟨d, hd⟩ := accepting_total unclaimed_reachable
  have haccept : accepting.Reachable (_, d.accept (0, 0) Sys.unclaimed.st _) :=
    hd.step ⟨@Step.accept _ 0 _ 0 0 0 rfl rfl rfl, .accept ⟨0, _, 0, rfl, rfl, rfl, rfl⟩⟩
  refine ⟨_, _, _, haccept, List.mem_append_right _ (List.mem_singleton_self _), rfl, fun h => ?_⟩
  cases h.state

end IrohEndpoint
