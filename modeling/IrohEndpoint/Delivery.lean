import IrohEndpoint.Intake

/-!
# What is accepted is delivered once

An accepted connection is queued when it is connected, and taken off the queue by
the one `accept` that returns it; the streams that its peer opens are queued in
the order noq yields them, and taken off in that order. A run is recorded in what
the `accept` calls returned, what noq yielded and what the calls for streams
returned (`Delivered`, `recorded`), and the record is compared with the queues
(`ExactlyOnce`).

What a queue and the record have together (`Delivered.Inv`) is what every step
preserves: an element moves from the queue to the record, and only an element
whose connection is no longer there is dropped.
-/

namespace IrohEndpoint

open Transition State

/-! ## The record -/

/-- The ids that noq yields for a direction while a connection is polled. -/
def Polling.yields (p : Polling) (dir : Dir) : List StreamId :=
  p.events.flatMap fun event => event.yields dir

/-- What was delivered, and what noq has yielded. -/
structure Delivered where
  /-- The connections that `accept` has returned, in order. -/
  accepted : List Stamp
  /-- The streams that noq has yielded for a connection, in order. -/
  yielded : Stamp → Dir → List StreamId
  /-- The streams that `accept_bi` or `accept_uni` has returned, in order. -/
  returned : Stamp → Dir → List StreamId

namespace Delivered

/-- Nothing was delivered yet. -/
def none : Delivered := ⟨[], fun _ _ => [], fun _ _ => []⟩

/-- A connection is returned. -/
def accept (d : Delivered) (stamp : Stamp) : Delivered :=
  { d with accepted := d.accepted ++ [stamp] }

/-- A stream is returned. -/
def take (d : Delivered) (stamp : Stamp) (dir : Dir) (id : StreamId) : Delivered :=
  { d with
    returned := fun stamp' dir' =>
      d.returned stamp' dir' ++ if stamp' = stamp ∧ dir' = dir then [id] else [] }

/-- noq yields streams for the connections in the table. -/
def poll (d : Delivered) (s : State) (polling : ConnectionHandle → Polling) : Delivered :=
  { d with
    yielded := fun stamp dir => d.yielded stamp dir ++
      if (s.entryFor stamp.1 stamp.2).isSome then (polling stamp.1).yields dir else [] }

end Delivered

/-- How a step brings the record up to date. -/
inductive Sys.Notes (s s' : Sys) (d : Delivered) : Delivered → Prop
  | accept {stamp : Stamp} : s.Accepts s' stamp → Notes s s' d (d.accept stamp)
  | stream {res : ConnectionRes} {dir : Dir} {id : StreamId} :
      s.AcceptsStream s' res dir id → Notes s s' d (d.take res.stamp dir id)
  | poll {polling : ConnectionHandle → Polling} :
      s.Drains s' polling → Notes s s' d (d.poll s.st polling)
  | silent :
      (∀ stamp, ¬s.Accepts s' stamp) → (∀ res dir id, ¬s.AcceptsStream s' res dir id) →
      (∀ polling, ¬s.Drains s' polling) → Notes s s' d d

/-- The endpoint with the record of its run. -/
def recorded : System (Sys × Delivered) := endpoint.observe .none Sys.Notes

/-- Every run has a record. -/
theorem recorded_total {s : Sys} (hs : endpoint.Reachable s) : ∃ d, recorded.Reachable (s, d) := by
  refine hs.observe fun s s' d _ => ?_
  by_cases ha : ∃ stamp, s.Accepts s' stamp
  · exact ⟨_, .accept ha.choose_spec⟩
  · by_cases hst : ∃ res dir id, s.AcceptsStream s' res dir id
    · obtain ⟨res, dir, id, hst⟩ := hst
      exact ⟨_, .stream hst⟩
    · by_cases hd : ∃ polling, s.Drains s' polling
      · exact ⟨_, .poll hd.choose_spec⟩
      · exact ⟨d, .silent (not_exists.1 ha) (fun res dir id h => hst ⟨res, dir, id, h⟩)
          (not_exists.1 hd)⟩

/-! ## What a poll queues -/

section Hear

variable {handle : ConnectionHandle} {e e' : ConnEntry} {event : Event} {events : List Event}
  {queued : List Stamp}

/-- What stays the same while a connection is polled. -/
structure ConnEntry.Same (e e' : ConnEntry) : Prop where
  epoch : e'.epoch = e.epoch
  acceptedSide : e'.acceptedSide = e.acceptedSide
  connected : e.connected = true → e'.connected = true

/-- An event queues the connection if it connects it. -/
theorem ConnEntry.Hearing.queues (hh : e.Hearing handle event e' queued)
    (hfresh : e.conn.session = none → e.connected = false) :
    e.Same e' ∧ (e'.conn.session = none → e'.connected = false) ∧
      (∀ dir, e'.queue dir = e.queue dir ++ event.yields dir) ∧
      queued = if e.acceptedSide && !e.connected && e'.connected then [(handle, e.epoch)] else [] := by
  cases hh with
  | connected hs =>
    refine ⟨⟨rfl, rfl, fun _ => rfl⟩, by simp, fun dir => ?_, by simp [hfresh hs]⟩
    cases dir <;> simp [queue, Event.yields]
  | mismatch hs =>
    refine ⟨⟨rfl, rfl, fun h => h⟩, by simp [onConnected.mismatch, NoqConnection.close],
      fun dir => ?_, by simp [onConnected.mismatch, hfresh hs]⟩
    cases dir <;> simp [queue, Event.yields, onConnected.mismatch]
  | lost =>
    refine ⟨⟨rfl, rfl, fun h => h⟩, hfresh, fun dir => ?_, by simp⟩
    cases dir <;> simp [queue, Event.yields]
  | other =>
    refine ⟨⟨rfl, rfl, fun h => h⟩, hfresh, fun dir => ?_, by simp⟩
    cases dir <;> rfl

/-- What is queued when a flag goes up is not queued again while it stays up. -/
theorem queued_once {side c₀ c₁ c₂ : Bool} (h₁ : c₀ = true → c₁ = true)
    (h₂ : c₁ = true → c₂ = true) (stamp : Stamp) :
    (if side && !c₀ && c₁ then [stamp] else []) ++ (if side && !c₁ && c₂ then [stamp] else []) =
      if side && !c₀ && c₂ then [stamp] else [] := by
  cases side <;> cases c₀ <;> cases c₁ <;> simp at h₁ h₂ ⊢
  exact h₂

/-- A connection is queued once, when it is connected, and its streams are queued as
    noq yields them. -/
theorem ConnEntry.hear_queued (h : e.hear handle events = some (e', queued))
    (hfresh : e.conn.session = none → e.connected = false) :
    e.Same e' ∧ (∀ dir, e'.queue dir = e.queue dir ++ events.flatMap fun event => event.yields dir) ∧
      queued = if e.acceptedSide && !e.connected && e'.connected then [(handle, e.epoch)] else [] := by
  induction events generalizing e queued with
  | nil =>
    cases h
    exact ⟨⟨rfl, rfl, fun h => h⟩, by simp, by simp⟩
  | cons event events ih =>
    obtain ⟨e₁, queued₁, queued', hh, hrest, rfl⟩ := hear_cases h
    obtain ⟨hsame, hfresh₁, hqueue, rfl⟩ := hh.queues hfresh
    obtain ⟨hsame', hqueue', rfl⟩ := ih hrest hfresh₁
    refine ⟨⟨hsame'.epoch.trans hsame.epoch, hsame'.acceptedSide.trans hsame.acceptedSide,
      hsame'.connected ∘ hsame.connected⟩, fun dir => ?_, ?_⟩
    · rw [hqueue', hqueue, List.flatMap_cons, List.append_assoc]
    · -- It is queued by the event that connects it, and not again.
      rw [hsame.epoch, hsame.acceptedSide]
      exact queued_once hsame.connected hsame'.connected _

/-- What a poll does to a connection; `queued` is what it adds to the queue. -/
structure ConnEntry.Polls (e e' : ConnEntry) (handle : ConnectionHandle) (polling : Polling)
    (queued : List Stamp) : Prop extends Same e e' where
  streams : ∀ dir, e'.queue dir = e.queue dir ++ polling.yields dir
  queues : queued =
    if e.acceptedSide && !e.connected && e'.connected then [(handle, e.epoch)] else []

/-- What a poll queues was in its handshake before. -/
theorem ConnEntry.Polls.mem {polling : Polling} {stamp : Stamp}
    (h : e.Polls e' handle polling queued) (hmem : stamp ∈ queued) :
    stamp = (handle, e.epoch) ∧ e.connected = false ∧ e'.connected = true := by
  rw [h.queues] at hmem
  split at hmem <;> rename_i hc
  · simp only [Bool.and_eq_true, Bool.not_eq_true'] at hc
    exact ⟨List.mem_singleton.1 hmem, hc.1.2, hc.2⟩
  · exact absurd hmem List.not_mem_nil

end Hear

/-- A poll of all connections; `queued` is what each adds to the queue. -/
structure Sys.Polls (s s' : Sys) (polling : ConnectionHandle → Polling)
    (queued : ConnectionHandle → List Stamp) : Prop where
  next : s'.st.nextConnEpoch = s.st.nextConnEpoch
  queue : s'.st.acceptQueue = s.st.acceptQueue ++ s.st.conns.keys.flatMap queued
  entry : ∀ handle e, s.st.conns.lookup handle = some e → ∃ e',
    s'.st.conns.lookup handle = some e' ∧ e.Polls e' handle (polling handle) (queued handle)
  back : ∀ handle e', s'.st.conns.lookup handle = some e' → ∃ e,
    s.st.conns.lookup handle = some e ∧ e.Polls e' handle (polling handle) (queued handle)

namespace Sys

variable {s s' : Sys} {polling : ConnectionHandle → Polling}
  {queued : ConnectionHandle → List Stamp}

/-- The pump polls all connections. -/
theorem Drains.polls (hs : endpoint.Reachable s) (hd : s.Drains s' polling) :
    ∃ queued, s.Polls s' polling queued := by
  obtain ⟨hnext, -, queued, hqueue, habsent, hheard⟩ := hd.hear
  have hentry : ∀ handle e, s.st.conns.lookup handle = some e → ∃ e',
      s'.st.conns.lookup handle = some e' ∧
        e.Polls e' handle (polling handle) (queued handle) := by
    intro handle e hl
    obtain ⟨e', hhear, hl'⟩ := hheard handle e hl
    obtain ⟨hsame, hstreams, hqueued⟩ :=
      ConnEntry.hear_queued hhear ((ledger_inv hs).not_connected hl)
    refine ⟨_, hl', ⟨hsame.epoch, hsame.acceptedSide, hsame.connected⟩, fun dir => ?_, hqueued⟩
    rw [Polling.yields, ← hstreams dir]
    cases dir <;> rfl
  refine ⟨queued, hnext, hqueue, hentry, fun handle e' hl' => ?_⟩
  cases hl : s.st.conns.lookup handle with
  | none => cases (habsent handle hl).symm.trans hl'
  | some e =>
    obtain ⟨x, hx, hpolls⟩ := hentry handle e hl
    cases Option.some.inj (hx.symm.trans hl')
    exact ⟨e, rfl, hpolls⟩

/-- What a connection adds to the queue. -/
theorem Polls.mem {handle : ConnectionHandle} {stamp : Stamp} (h : s.Polls s' polling queued)
    (hkey : handle ∈ s.st.conns.keys) (hmem : stamp ∈ queued handle) :
    ∃ e e', s.st.conns.lookup handle = some e ∧ s'.st.conns.lookup handle = some e' ∧
      stamp = (handle, e.epoch) ∧ e.connected = false ∧ e'.connected = true := by
  obtain ⟨e, hl⟩ := Option.isSome_iff_exists.1 (AList.lookup_isSome.2 (AList.mem_keys.2 hkey))
  obtain ⟨e', hl', hpolls⟩ := h.entry handle e hl
  exact ⟨e, e', hl, hl', hpolls.mem hmem⟩

/-- What a poll adds to the queue. -/
theorem Polls.new {stamp : Stamp} (h : s.Polls s' polling queued)
    (hmem : stamp ∈ s.st.conns.keys.flatMap queued) :
    ∃ e e', s.st.conns.lookup stamp.1 = some e ∧ s'.st.conns.lookup stamp.1 = some e' ∧
      stamp.2 = e.epoch ∧ e.connected = false ∧ e'.connected = true := by
  obtain ⟨handle, hkey, hmem⟩ := List.mem_flatMap.1 hmem
  obtain ⟨e, e', hl, hl', rfl, hc, hc'⟩ := h.mem hkey hmem
  exact ⟨e, e', hl, hl', rfl, hc, hc'⟩

/-- A poll queues no connection twice. -/
theorem Polls.nodup (h : s.Polls s' polling queued) :
    (s.st.conns.keys.flatMap queued).Nodup := by
  have hnodup : s.st.conns.keys.Nodup := s.st.conns.nodupKeys
  rw [List.nodup_flatMap]
  refine ⟨fun handle hkey => ?_, hnodup.imp_of_mem fun hk hk' hne stamp hmem hmem' => ?_⟩
  · obtain ⟨e, hl⟩ := Option.isSome_iff_exists.1 (AList.lookup_isSome.2 (AList.mem_keys.2 hkey))
    obtain ⟨e', -, hpolls⟩ := h.entry handle e hl
    rw [hpolls.queues]
    split <;> simp
  · -- What a connection queues has its handle.
    obtain ⟨_, _, -, -, rfl, -⟩ := h.mem hk hmem
    obtain ⟨_, _, -, -, heq, -⟩ := h.mem hk' hmem'
    exact hne (Prod.mk.inj heq).1

end Sys

/-! ## The queues and the record -/

/-- What the record and the queues have together. -/
structure Delivered.Inv (d : Delivered) (s : State) : Prop where
  used : ∀ stamp ∈ d.accepted ++ s.acceptQueue, stamp.2 < s.nextConnEpoch
  /-- No connection was returned or queued twice, -/
  once : (d.accepted ++ s.acceptQueue).Nodup
  /-- a connection was returned or queued only if it is connected, -/
  connected : ∀ stamp ∈ d.accepted ++ s.acceptQueue, ∀ e,
    s.entryFor stamp.1 stamp.2 = some e → e.connected = true
  /-- and each that is connected was. -/
  kept : ∀ handle e, s.conns.lookup handle = some e → e.acceptedSide = true →
    e.connected = true → (handle, e.epoch) ∈ d.accepted ++ s.acceptQueue
  /-- The streams that noq has yielded were returned, or are queued behind those. -/
  streams : ∀ handle e dir, s.conns.lookup handle = some e →
    d.yielded (handle, e.epoch) dir = d.returned (handle, e.epoch) dir ++ e.queue dir
  order : ∀ stamp dir, d.returned stamp dir <+: d.yielded stamp dir
  unused : ∀ stamp dir, s.nextConnEpoch ≤ stamp.2 → d.yielded stamp dir = []

/-- The entries have the same streams, and are as connected. -/
structure ConnEntry.Alike (e e' : ConnEntry) : Prop extends Same e e' where
  same : e'.connected = e.connected
  queue : ∀ dir, e'.queue dir = e.queue dir

theorem ConnEntry.Alike.refl (e : ConnEntry) : Alike e e :=
  ⟨⟨rfl, rfl, fun h => h⟩, rfl, fun _ => rfl⟩

namespace Delivered.Inv

variable {d d' : Delivered} {s s' : State}

/-- What is no longer there may be dropped, and the entries may change otherwise. -/
theorem shrink (hi : d.Inv s)
    (hsub : (d'.accepted ++ s'.acceptQueue).Sublist (d.accepted ++ s.acceptQueue))
    (hkeep : ∀ stamp ∈ d.accepted ++ s.acceptQueue, (s.entryFor stamp.1 stamp.2).isSome →
      stamp ∈ d'.accepted ++ s'.acceptQueue)
    (hconns : ∀ handle e', s'.conns.lookup handle = some e' →
      ∃ e, s.conns.lookup handle = some e ∧ e.Alike e')
    (hnext : s'.nextConnEpoch = s.nextConnEpoch) (hyielded : d'.yielded = d.yielded)
    (hreturned : d'.returned = d.returned) : d'.Inv s' where
  used := fun stamp hmem => hnext ▸ hi.used stamp (hsub.subset hmem)
  once := hi.once.sublist hsub
  connected := by
    intro stamp hmem e' he'
    obtain ⟨hl', hep⟩ := entryFor_iff.1 he'
    obtain ⟨e, hl, ha⟩ := hconns stamp.1 e' hl'
    rw [ha.same]
    exact hi.connected stamp (hsub.subset hmem) e (entryFor_iff.2 ⟨hl, ha.epoch.symm.trans hep⟩)
  kept := by
    intro handle e' hl' hside hconn
    obtain ⟨e, hl, ha⟩ := hconns handle e' hl'
    rw [ha.epoch]
    refine hkeep _ (hi.kept handle e hl (ha.acceptedSide ▸ hside) (ha.same ▸ hconn)) ?_
    rw [entryFor_iff.2 ⟨hl, rfl⟩]
    rfl
  streams := by
    intro handle e' dir hl'
    obtain ⟨e, hl, ha⟩ := hconns handle e' hl'
    rw [hyielded, hreturned, ha.epoch, ha.queue]
    exact hi.streams handle e dir hl
  order := fun stamp dir => by rw [hyielded, hreturned]; exact hi.order stamp dir
  unused := fun stamp dir h => by rw [hyielded]; exact hi.unused stamp dir (hnext ▸ h)

/-- A connection that is made has a stamp of its own, and no streams. -/
theorem insert (hi : d.Inv s) {handle : ConnectionHandle} {origin : Origin} {remote : SocketAddr}
    (hconns : s'.conns = s.conns.insert handle (.new (.new s.insertions.length origin remote)
      origin.claim origin.accepted s.nextConnEpoch))
    (hqueue : s'.acceptQueue = s.acceptQueue) (hnext : s'.nextConnEpoch = s.nextConnEpoch + 1) :
    d.Inv s' := by
  have hlookup : ∀ {handle' e}, s'.conns.lookup handle' = some e →
      (handle' = handle ∧ e = .new (.new s.insertions.length origin remote) origin.claim
        origin.accepted s.nextConnEpoch) ∨ s.conns.lookup handle' = some e := by
    intro handle' e hl
    rw [hconns, Table.lookup_insert_eq] at hl
    split at hl
    · cases hl
      exact .inl ⟨‹_›, rfl⟩
    · exact .inr hl
  refine ⟨fun stamp hmem => ?_, hqueue ▸ hi.once, fun stamp hmem e he => ?_,
    fun handle' e hl hside hconn => ?_, fun handle' e dir hl => ?_, hi.order,
    fun stamp dir h => ?_⟩
  · rw [hqueue] at hmem
    rw [hnext]
    exact Nat.lt_succ_of_lt (hi.used stamp hmem)
  · rw [hqueue] at hmem
    obtain ⟨hl, hep⟩ := entryFor_iff.1 he
    rcases hlookup hl with ⟨-, rfl⟩ | hl
    · exact absurd hep (Nat.ne_of_gt (hi.used stamp hmem))
    · exact hi.connected stamp hmem e (entryFor_iff.2 ⟨hl, hep⟩)
  · rw [hqueue]
    rcases hlookup hl with ⟨-, rfl⟩ | hl
    · cases hconn
    · exact hi.kept handle' e hl hside hconn
  · rcases hlookup hl with ⟨-, rfl⟩ | hl
    · have hnone := hi.unused (handle', s.nextConnEpoch) dir (le_refl _)
      have hreturned := hi.order (handle', s.nextConnEpoch) dir
      rw [hnone, List.prefix_nil] at hreturned
      simp only [ConnEntry.new, hnone, hreturned, List.nil_append]
      cases dir <;> rfl
    · exact hi.streams handle' e dir hl
  · rw [hnext] at h
    exact hi.unused stamp dir (Nat.le_of_succ_le h)

/-- What a step does to the desk. -/
theorem acts (hi : d.Inv s) (h : s.Acts s'.desk) : d.Inv s' := by
  generalize hd : s'.desk = dk at h
  have hconns : s'.conns = dk.conns := congrArg Desk.conns hd
  have hqueue : s'.acceptQueue = dk.acceptQueue := congrArg Desk.acceptQueue hd
  have hnext : s'.nextConnEpoch = dk.nextConnEpoch := congrArg Desk.nextConnEpoch hd
  cases h with
  | rest =>
    refine hi.shrink ?_ (fun stamp hmem _ => ?_) (fun handle e hl => ⟨e, ?_, .refl e⟩) hnext rfl rfl
    · rw [hqueue]
      exact .refl _
    · rw [hqueue]
      exact hmem
    · rwa [hconns] at hl
  | skipped hstale =>
    refine hi.shrink ?_ (fun stamp hmem hsome => ?_) (fun handle e hl => ⟨e, ?_, .refl e⟩) hnext
      rfl rfl
    · simp [hqueue]
    · -- What is there was returned already.
      rcases List.mem_append.1 hmem with hmem | hmem
      · exact List.mem_append_left _ hmem
      · rw [hstale stamp hmem] at hsome
        cases hsome
    · rwa [hconns] at hl
  | closed hclosed =>
    refine hi.shrink ?_ (fun stamp hmem _ => ?_) (fun handle e' hl' => ?_) hnext rfl rfl
    · rw [hqueue]
      exact .refl _
    · rw [hqueue]
      exact hmem
    · rw [hconns, hclosed, Option.map_eq_some_iff] at hl'
      obtain ⟨e, hl, rfl⟩ := hl'
      exact ⟨e, hl, ⟨rfl, rfl, fun h => h⟩, rfl, fun dir => by cases dir <;> rfl⟩
  | inserted => exact hi.insert hconns hqueue hnext

/-- `accept` moves a connection from the queue to the record. -/
theorem accept {s s' : Sys} {stamp : Stamp} (hi : d.Inv s.st) (h : s.Accepts s' stamp) :
    (d.accept stamp).Inv s'.st := by
  obtain ⟨_, st, _, -, hc, -, rfl⟩ := h
  obtain ⟨stale, rest, e, hqueue, hstale, -, rfl⟩ := acceptCheck_ok hc
  refine hi.shrink ?_ (fun stamp' hmem hsome => ?_) (fun handle e hl => ⟨e, hl, .refl e⟩) rfl rfl rfl
  · rw [hqueue, Delivered.accept, List.append_assoc]
    exact (List.sublist_append_right stale _).append_left d.accepted
  · simp only [hqueue, Delivered.accept, List.mem_append, List.mem_cons] at hmem ⊢
    rcases hmem with hmem | hmem | rfl | hmem
    · exact .inl (.inl hmem)
    · rw [hstale stamp' hmem] at hsome
      cases hsome
    · exact .inl (.inr (.inl rfl))
    · exact .inr hmem

/-- `accept_bi` and `accept_uni` move a stream from the queue to the record. -/
theorem stream {s s' : Sys} {res : ConnectionRes} {dir : Dir} {id : StreamId} (hi : d.Inv s.st)
    (h : s.AcceptsStream s' res dir id) :
    (d.take res.stamp dir id).Inv s'.st := by
  obtain ⟨_, st, -, -, hc, rfl⟩ := h
  obtain ⟨e, rest, he, hqueue, rfl⟩ := acceptStreamCheck_ok hc
  obtain ⟨hl, hep⟩ := entryFor_iff.1 he
  have hstamp : (res.handle, e.epoch) = res.stamp := by rw [hep]; rfl
  have hset : (e.setQueue dir rest).epoch = e.epoch ∧
      (e.setQueue dir rest).acceptedSide = e.acceptedSide ∧
      (e.setQueue dir rest).connected = e.connected := by
    cases dir <;> exact ⟨rfl, rfl, rfl⟩
  have hyielded := hi.streams res.handle e dir hl
  rw [hstamp, hqueue] at hyielded
  have hlookup : ∀ {handle x}, (s.st.conns.insert res.handle (e.setQueue dir rest)).lookup handle =
      some x → (handle = res.handle ∧ x = e.setQueue dir rest) ∨
        (handle ≠ res.handle ∧ s.st.conns.lookup handle = some x) :=
    Table.lookup_insert_some.1
  refine ⟨hi.used, hi.once, fun stamp hmem x hx => ?_, fun handle x hx hside hconn => ?_,
    fun handle x dir' hx => ?_, fun stamp dir' => ?_, hi.unused⟩
  · obtain ⟨hx, hxep⟩ := entryFor_iff.1 hx
    rcases hlookup hx with ⟨hh, rfl⟩ | ⟨-, hx⟩
    · rw [hset.2.2]
      refine hi.connected stamp hmem e (entryFor_iff.2 ⟨hh ▸ hl, hset.1.symm.trans hxep⟩)
    · exact hi.connected stamp hmem x (entryFor_iff.2 ⟨hx, hxep⟩)
  · rcases hlookup hx with ⟨rfl, rfl⟩ | ⟨-, hx⟩
    · rw [hset.1]
      exact hi.kept _ e hl (hset.2.1 ▸ hside) (hset.2.2 ▸ hconn)
    · exact hi.kept handle x hx hside hconn
  · rw [Delivered.take]
    dsimp only
    rcases hlookup hx with ⟨rfl, rfl⟩ | ⟨hne, hx⟩
    · rw [hset.1, hstamp]
      by_cases hdir : dir' = dir
      · subst hdir
        rw [if_pos ⟨rfl, rfl⟩, hyielded, List.append_assoc]
        cases dir' <;> rfl
      · rw [if_neg fun h => hdir h.2, List.append_nil]
        have hold := hi.streams res.handle e dir' hl
        rw [hstamp] at hold
        rw [hold]
        cases dir <;> cases dir' <;> first | rfl | exact absurd rfl hdir
    · have hother : (handle, x.epoch) ≠ res.stamp := fun h => hne (Prod.mk.inj h).1
      rw [if_neg fun h => hother h.1, List.append_nil]
      exact hi.streams handle x dir' hx
  · rw [Delivered.take]
    dsimp only
    by_cases hsame : stamp = res.stamp ∧ dir' = dir
    · obtain ⟨rfl, rfl⟩ := hsame
      rw [if_pos ⟨rfl, rfl⟩, hyielded]
      exact ⟨rest, by simp⟩
    · rw [if_neg hsame, List.append_nil]
      exact hi.order stamp dir'

/-- A poll queues what it connects, and the streams that noq yields. -/
theorem poll {s s' : Sys} {polling : ConnectionHandle → Polling} (hs : endpoint.Reachable s)
    (hi : d.Inv s.st) (hd : s.Drains s' polling) : (d.poll s.st polling).Inv s'.st := by
  have hledger := ledger_inv hs
  obtain ⟨queued, hp⟩ := hd.polls hs
  have hold : ∀ stamp ∈ d.accepted ++ s.st.acceptQueue, ∀ e, s.st.conns.lookup stamp.1 = some e →
      e.epoch = stamp.2 → e.connected = true :=
    fun stamp hmem e hl hep => hi.connected stamp hmem e (entryFor_iff.2 ⟨hl, hep⟩)
  have hqueue : (d.poll s.st polling).accepted ++ s'.st.acceptQueue =
      (d.accepted ++ s.st.acceptQueue) ++ s.st.conns.keys.flatMap queued := by
    rw [Delivered.poll, hp.queue, List.append_assoc]
  refine ⟨fun stamp hmem => ?_, ?_, fun stamp hmem e' he' => ?_,
    fun handle e' hl' hside hconn => ?_, fun handle e' dir hl' => ?_, fun stamp dir => ?_,
    fun stamp dir h => ?_⟩
  · rw [hp.next]
    rcases List.mem_append.1 (hqueue ▸ hmem) with hmem | hmem
    · exact hi.used stamp hmem
    · obtain ⟨e, -, hl, -, hep, -⟩ := hp.new hmem
      rw [hep]
      exact hledger.entry_lt hl
  · rw [hqueue, List.nodup_append']
    refine ⟨hi.once, hp.nodup, fun stamp hmem hmem' => ?_⟩
    -- What was queued before is connected, so the poll does not queue it again.
    obtain ⟨e, -, hl, -, hep, hc, -⟩ := hp.new hmem'
    exact Bool.false_ne_true (hc.symm.trans (hold stamp hmem e hl hep.symm))
  · obtain ⟨hl', hep'⟩ := entryFor_iff.1 he'
    obtain ⟨e, hl, hpolls⟩ := hp.back stamp.1 e' hl'
    rcases List.mem_append.1 (hqueue ▸ hmem) with hmem | hmem
    · exact hpolls.connected (hold stamp hmem e hl (hpolls.epoch.symm.trans hep'))
    · obtain ⟨_, x, -, hx, -, -, hc⟩ := hp.new hmem
      cases Option.some.inj (hl'.symm.trans hx)
      exact hc
  · obtain ⟨e, hl, hpolls⟩ := hp.back handle e' hl'
    rw [hqueue, hpolls.epoch]
    by_cases hc : e.connected = true
    · exact List.mem_append_left _ (hi.kept handle e hl (hpolls.acceptedSide ▸ hside) hc)
    · refine List.mem_append_right _ (List.mem_flatMap.2 ⟨handle, ?_, ?_⟩)
      · exact AList.mem_keys.1 (AList.lookup_isSome.1 (by rw [hl]; rfl))
      · simp [hpolls.queues, ← hpolls.acceptedSide, hside, hc, hconn]
  · obtain ⟨e, hl, hpolls⟩ := hp.back handle e' hl'
    have hsome : (s.st.entryFor handle e.epoch).isSome := by
      rw [entryFor_iff.2 ⟨hl, rfl⟩]
      rfl
    rw [Delivered.poll]
    dsimp only
    rw [hpolls.epoch, if_pos hsome, hpolls.streams, hi.streams handle e dir hl, List.append_assoc]
  · exact (hi.order stamp dir).trans (List.prefix_append _ _)
  · -- noq yields nothing for a stamp that is not in use yet.
    rw [hp.next] at h
    have hnone : s.st.entryFor stamp.1 stamp.2 = .none := by
      rw [Option.eq_none_iff_forall_ne_some]
      intro e he
      obtain ⟨hl, hep⟩ := entryFor_iff.1 he
      exact absurd (hledger.entry_lt hl) (Nat.not_lt_of_le (hep ▸ h))
    rw [Delivered.poll]
    dsimp only
    rw [hi.unused stamp dir h, hnone]
    rfl

/-- The record and the queues start empty. -/
theorem empty (hc : s.conns = ∅) (hq : s.acceptQueue = []) : Delivered.none.Inv s where
  used := by simp [Delivered.none, hq]
  once := by simp [Delivered.none, hq]
  connected := by simp [Delivered.none, hq]
  kept := by simp [hc]
  streams := by simp [hc]
  order := fun _ _ => List.prefix_rfl
  unused := fun _ _ _ => rfl

/-- A step brings the record up to date with the queues. -/
theorem step {s s' : Sys} (hs : endpoint.Reachable s) (hi : d.Inv s.st) (h : Step s s')
    (hn : s.Notes s' d d') : d'.Inv s'.st := by
  cases hn with
  | accept ha => exact hi.accept ha
  | stream ha => exact hi.stream ha
  | poll hd => exact hi.poll hs hd
  | silent ha hst hd =>
    rcases h.acts with ⟨polling, h⟩ | ⟨stamp, h⟩ | ⟨res, dir, id, h⟩ | hacts
    · exact absurd h (hd polling)
    · exact absurd h (ha stamp)
    · exact absurd h (hst res dir id)
    · exact hi.acts hacts

/-- The record and the queues, in every reachable state. -/
theorem reachable {x : Sys × Delivered} (h : recorded.Reachable x) : x.2.Inv x.1.st := by
  refine h.invariant (P := fun x => x.2.Inv x.1.st) ?_ fun x y hr hst hi =>
    hi.step hr.of_observe hst.1 hst.2
  rintro ⟨s, d⟩ ⟨⟨config, webrtc, now, st, key, hr, rfl⟩, rfl⟩
  obtain ⟨-, -, rfl⟩ := registerRelay_eq hr
  exact .empty rfl rfl

end Delivered.Inv

/-! ## Exactly once -/

/-- What is accepted is delivered exactly once, in every state of a run with the
    record `d`. -/
structure ExactlyOnce (s : Sys) (d : Delivered) : Prop where
  /-- A connection is returned by at most one `accept`. -/
  accepted : d.accepted.Nodup
  /-- An accepted connection that is connected and still there is in the queue once,
      until it is returned. -/
  kept : ∀ handle e, s.st.conns.lookup handle = some e → e.acceptedSide = true →
    e.connected = true →
    d.accepted.count (handle, e.epoch) + s.st.acceptQueue.count (handle, e.epoch) = 1
  /-- The streams of a connection are returned in the order noq yielded them, -/
  ordered : ∀ stamp dir, d.returned stamp dir <+: d.yielded stamp dir
  /-- those that are not yet returned are queued while it is there, -/
  queued : ∀ handle e dir, s.st.conns.lookup handle = some e →
    d.yielded (handle, e.epoch) dir = d.returned (handle, e.epoch) dir ++ e.queue dir
  /-- and each is returned at most once, if noq yields it once. -/
  returned : ∀ stamp dir, (d.yielded stamp dir).Nodup → (d.returned stamp dir).Nodup
  /-- A connection leaves the queue only if it is returned, not if a call is
      cancelled or parks again, -/
  removed : ∀ s', Step s s' → (∀ stamp, ¬s.Accepts s' stamp) → ∀ handle epoch e,
    s.st.entryFor handle epoch = some e →
    s.st.acceptQueue.count (handle, epoch) ≤ s'.st.acceptQueue.count (handle, epoch)
  /-- and so does a stream. -/
  removedStream : ∀ s', Step s s' → (∀ res dir id, ¬s.AcceptsStream s' res dir id) →
    ∀ handle epoch e e' dir, s.st.entryFor handle epoch = some e →
    s'.st.entryFor handle epoch = some e' → e.queue dir <+: e'.queue dir

/-- Only what is no longer there is dropped from the queue of connections. -/
theorem Step.acceptQueue {s s' : Sys} (h : Step s s') (hn : ∀ stamp, ¬s.Accepts s' stamp)
    {handle : ConnectionHandle} {epoch : ℕ} {e : ConnEntry}
    (he : s.st.entryFor handle epoch = some e) :
    s.st.acceptQueue.count (handle, epoch) ≤ s'.st.acceptQueue.count (handle, epoch) := by
  rcases h.acts with ⟨polling, hd⟩ | ⟨stamp, ha⟩ | ⟨res, dir, id, ha⟩ | hacts
  · obtain ⟨-, -, queued, hqueue, -⟩ := hd.hear
    rw [hqueue, List.count_append]
    exact Nat.le_add_right _ _
  · exact absurd ha (hn stamp)
  · obtain ⟨_, st, -, -, hc, rfl⟩ := ha
    obtain ⟨_, _, -, -, rfl⟩ := acceptStreamCheck_ok hc
    exact le_refl _
  · generalize hd : s'.st.desk = d at hacts
    have hqueue : s'.st.acceptQueue = d.acceptQueue := congrArg Desk.acceptQueue hd
    rw [hqueue]
    cases hacts with
    | skipped hstale =>
      rw [List.count_eq_zero_of_not_mem]
      · exact Nat.zero_le _
      · intro hmem
        cases he.symm.trans (hstale _ hmem)
    | _ => exact le_refl _

/-- The streams of a connection stay queued unless they are handed out. -/
theorem Step.streamQueue {s s' : Sys} (hs : endpoint.Reachable s) (h : Step s s')
    (hn : ∀ res dir id, ¬s.AcceptsStream s' res dir id) {handle : ConnectionHandle} {epoch : ℕ}
    {e e' : ConnEntry} (dir : Dir) (he : s.st.entryFor handle epoch = some e)
    (he' : s'.st.entryFor handle epoch = some e') : e.queue dir <+: e'.queue dir := by
  obtain ⟨hl, hep⟩ := entryFor_iff.1 he
  obtain ⟨hl', hep'⟩ := entryFor_iff.1 he'
  have hledger := ledger_inv hs
  rcases h.acts with ⟨polling, hd⟩ | ⟨stamp, ha⟩ | ⟨res, dir, id, ha⟩ | hacts
  · obtain ⟨queued, hp⟩ := hd.polls hs
    obtain ⟨x, hx, hpolls⟩ := hp.entry handle e hl
    cases Option.some.inj (hl'.symm.trans hx)
    rw [hpolls.streams]
    exact List.prefix_append _ _
  · obtain ⟨_, st, _, -, hc, -, rfl⟩ := ha
    obtain ⟨_, _, _, -, -, -, rfl⟩ := acceptCheck_ok hc
    cases Option.some.inj (hl.symm.trans hl')
    exact List.prefix_rfl
  · exact absurd ha (hn res dir id)
  · generalize hd : s'.st.desk = d at hacts
    have hconns : s'.st.conns = d.conns := congrArg Desk.conns hd
    rw [hconns] at hl'
    cases hacts with
    | rest | skipped =>
      cases Option.some.inj (hl.symm.trans hl')
      exact List.prefix_rfl
    | closed hclosed =>
      replace hl' := (hclosed handle).symm.trans hl'
      rw [hl, Option.map_some, Option.some.injEq] at hl'
      rw [← hl']
      cases dir <;> exact List.prefix_rfl
    | inserted =>
      rw [Table.lookup_insert_eq] at hl'
      split at hl'
      · -- The new entry has a stamp of its own.
        cases hl'
        exact absurd hep' (Nat.ne_of_gt (hep ▸ hledger.entry_lt hl))
      · cases Option.some.inj (hl.symm.trans hl')
        exact List.prefix_rfl

/-- In every run, what is accepted is delivered exactly once. -/
theorem exactlyOnce_reachable {s : Sys} {d : Delivered} (h : recorded.Reachable (s, d)) :
    ExactlyOnce s d := by
  have hs : endpoint.Reachable s := h.of_observe
  have hi : d.Inv s.st := Delivered.Inv.reachable h
  refine ⟨hi.once.of_append_left, fun handle e hl hside hconn => ?_, hi.order, hi.streams,
    fun stamp dir hnodup => hnodup.sublist (hi.order stamp dir).sublist,
    fun s' hst hn handle epoch e he => hst.acceptQueue hn he,
    fun s' hst hn handle epoch e e' dir he he' => hst.streamQueue hs hn dir he he'⟩
  rw [← List.count_append]
  exact List.count_eq_one_of_mem hi.once (hi.kept handle e hl hside hconn)

/-- The first connection of an endpoint was returned, and is not returned again. -/
theorem exactlyOnce_accepted : ∃ d, recorded.Reachable (Sys.accepted (Vector.replicate 32 7), d) ∧
    d.accepted.count (0, 0) = 1 ∧ ExactlyOnce (Sys.accepted (Vector.replicate 32 7)) d := by
  obtain ⟨d, hd⟩ := recorded_total accepted_reachable
  have honce := exactlyOnce_reachable hd
  exact ⟨d, hd, honce.kept 0 _ rfl rfl rfl, honce⟩

end IrohEndpoint
