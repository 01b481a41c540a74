import Mathlib.Data.Multiset.MapFold
import Mathlib.Data.Multiset.Count
import Mathlib.Data.List.Range
import IrohEndpoint.Lib.Transition
import IrohEndpoint.State

/-!
# The ledger of connections

The table of connections together with everything that holds on to one of them
by the slot and the stamp it was inserted with: the guards of the dials in
flight, the queue of connections to accept, the connections and the streams
handed to the application.

`Ledger.machine` says what may happen: connections are inserted and evolve,
their handshakes complete or are refused, and a connection is handed from a
guard or from the queue to the application, or closed when its holder lets go of
it. Its invariant is `Ledger.Inv`:

* no two insertions share a stamp, and every entry and every holder is that of
  an insertion;
* a connected entry has authenticated the key it is expected to have
  (`ConnEntry.Sound`);
* an entry that is still live has exactly one owner (`Ledger.owners`).

A run never brings back an entry under a stamp that was used
(`Ledger.Advances`).
-/

namespace IrohEndpoint

open Transition

/-! ## Entries -/

/-- Neither closed, nor failed, nor drained. -/
structure ConnEntry.Live (e : ConnEntry) : Prop where
  closeCall : e.conn.closeCall = none
  error : e.error = none
  drained : e.drained = false

/-- The origin of a connection that noq accepted. -/
def Origin.accepted : Origin → Bool
  | dialed _ => false
  | _ => true

/-- The handshake of a connected entry authenticated the key it is expected to
    have, which its origin claims. -/
structure ConnEntry.Sound (e : ConnEntry) : Prop where
  claim : e.expectedPeer = e.conn.origin.claim
  side : e.acceptedSide = e.conn.origin.accepted
  authenticated : e.connected = true → ∃ session k, e.conn.session = some session ∧
    session.peerIdentity = some k ∧ e.peer = some k ∧ ∀ p, e.expectedPeer = some p → k = p

/-- The entry `e` may become `e'`: it is the same connection, and does not become
    live again. -/
structure ConnEntry.Evolves (e e' : ConnEntry) : Prop where
  epoch : e'.epoch = e.epoch
  id : e'.conn.id = e.conn.id
  origin : e'.conn.origin = e.conn.origin
  expectedPeer : e'.expectedPeer = e.expectedPeer
  acceptedSide : e'.acceptedSide = e.acceptedSide
  closeCall : e'.conn.closeCall = none → e.conn.closeCall = none
  error : e'.error = none → e.error = none
  drained : e'.drained = false → e.drained = false

/-- The entry `e` may become `e'` outside of its handshake. -/
structure ConnEntry.Settles (e e' : ConnEntry) : Prop extends Evolves e e' where
  session : e'.conn.session = e.conn.session
  peer : e'.peer = e.peer
  connected : e'.connected = e.connected

/-- The entry `e` may become `e'` outside of the polling of its connection. -/
structure ConnEntry.Rests (e e' : ConnEntry) : Prop extends Settles e e' where
  kept : e'.error = e.error ∧ e'.drained = e.drained

namespace ConnEntry

variable {e e' e'' : ConnEntry}

theorem Evolves.refl (e : ConnEntry) : Evolves e e :=
  ⟨rfl, rfl, rfl, rfl, rfl, fun h => h, fun h => h, fun h => h⟩

theorem Settles.refl (e : ConnEntry) : Settles e e := ⟨.refl e, rfl, rfl, rfl⟩

theorem Rests.refl (e : ConnEntry) : Rests e e := ⟨.refl e, rfl, rfl⟩

theorem Evolves.trans (h : Evolves e e') (h' : Evolves e' e'') : Evolves e e'' where
  epoch := h'.epoch.trans h.epoch
  id := h'.id.trans h.id
  origin := h'.origin.trans h.origin
  expectedPeer := h'.expectedPeer.trans h.expectedPeer
  acceptedSide := h'.acceptedSide.trans h.acceptedSide
  closeCall := h.closeCall ∘ h'.closeCall
  error := h.error ∘ h'.error
  drained := h.drained ∘ h'.drained

/-- An entry that is live was live before. -/
theorem Evolves.live (h : Evolves e e') (hl : e'.Live) : e.Live :=
  ⟨h.closeCall hl.closeCall, h.error hl.error, h.drained hl.drained⟩

/-- Outside of its handshake, an entry stays sound. -/
theorem Settles.sound (h : Settles e e') (hs : e.Sound) : e'.Sound where
  claim := by rw [h.expectedPeer, h.origin, hs.claim]
  side := by rw [h.acceptedSide, h.origin, hs.side]
  authenticated := by
    rw [h.connected, h.session, h.peer, h.expectedPeer]
    exact hs.authenticated

end ConnEntry

/-! ## The machine -/

/-- A slot and a stamp: which connection a holder was minted for. -/
abbrev Stamp := ConnectionHandle × ℕ

/-- The connections and what holds on to them. -/
structure Ledger where
  conns : Table ConnectionHandle ConnEntry
  nextConnEpoch : ℕ
  insertions : List Insertion
  acceptQueue : List Stamp
  /-- The armed dial guards, with the peers that are dialed. -/
  guards : Multiset (Stamp × EndpointId)
  /-- The connections that the application has not dropped. -/
  resources : Multiset Stamp
  /-- The streams that were handed out. -/
  streams : List Stamp
  /-- The watches of paths that were handed out. -/
  watches : List Stamp
  /-- The channels that were registered, with the peers they were signaled with. -/
  signaled : List (ChannelId × EndpointId)
  /-- Whether the endpoint is closed. -/
  closed : Bool

namespace Ledger

/-- The entry under a stamp, while it is there. -/
def Current (l : Ledger) (stamp : Stamp) (e : ConnEntry) : Prop :=
  l.conns.lookup stamp.1 = some e ∧ e.epoch = stamp.2

/-- The entry of a connection that is inserted now. -/
def fresh (l : Ledger) (origin : Origin) (remote : SocketAddr) : ConnEntry :=
  .new (.new l.insertions.length origin remote) origin.claim origin.accepted l.nextConnEpoch

/-- The guard of a connection that is inserted now, if it is dialed. -/
def freshGuard (l : Ledger) (handle : ConnectionHandle) : Origin → Multiset (Stamp × EndpointId)
  | .dialed peer => {((handle, l.nextConnEpoch), peer)}
  | _ => 0

/-- The ledger after a connection was inserted. -/
def insert (l : Ledger) (handle : ConnectionHandle) (origin : Origin) (remote : SocketAddr) :
    Ledger :=
  { l with
    nextConnEpoch := l.nextConnEpoch + 1
    insertions := l.insertions ++ [⟨handle, l.nextConnEpoch, l.insertions.length⟩]
    conns := l.conns.insert handle (l.fresh origin remote)
    guards := l.freshGuard handle origin + l.guards }

/-- What may happen without polling the connections. -/
inductive Rest : Ledger → Ledger → Prop
  /-- A datagram makes a connection, or a dial does, which its guard holds. -/
  | inserted {l : Ledger} {handle : ConnectionHandle} {origin : Origin} {remote : SocketAddr} :
      l.closed = false → (∀ id peer, origin = .channel id peer → (id, peer) ∈ l.signaled) →
      Rest l (l.insert handle origin remote)
  /-- Connections are closed, and their streams accepted. -/
  | settle {l : Ledger} {conns : Table ConnectionHandle ConnEntry} :
      (∀ handle e', conns.lookup handle = some e' →
        ∃ e, l.conns.lookup handle = some e ∧ e.Rests e') →
      Rest l { l with conns := conns }
  /-- A dial completes: its guard hands the connection to the application. -/
  | completed {l : Ledger} {stamp : Stamp} {peer : EndpointId}
      {guards : Multiset (Stamp × EndpointId)} {e : ConnEntry} :
      l.guards = (stamp, peer) ::ₘ guards → l.Current stamp e → e.connected = true →
      Rest l { l with guards := guards, resources := stamp ::ₘ l.resources }
  /-- A dial ends: what its guard holds is not live. -/
  | released {l : Ledger} {stamp : Stamp} {peer : EndpointId}
      {guards : Multiset (Stamp × EndpointId)} :
      l.guards = (stamp, peer) ::ₘ guards → (∀ e, l.Current stamp e → ¬e.Live) →
      Rest l { l with guards := guards }
  /-- The head of the queue is handed to the application. -/
  | accept {l : Ledger} {stamp : Stamp} {rest : List Stamp} {e : ConnEntry} :
      l.acceptQueue = stamp :: rest → l.Current stamp e →
      Rest l { l with acceptQueue := rest, resources := stamp ::ₘ l.resources }
  /-- The head of the queue is no longer there. -/
  | skip {l : Ledger} {stamp : Stamp} {rest : List Stamp} :
      l.acceptQueue = stamp :: rest → (∀ e, ¬l.Current stamp e) →
      Rest l { l with acceptQueue := rest }
  /-- The application drops a connection: it is not live. -/
  | drop {l : Ledger} {stamp : Stamp} {resources : Multiset Stamp} :
      l.resources = stamp ::ₘ resources → (∀ e, l.Current stamp e → ¬e.Live) →
      Rest l { l with resources := resources }
  /-- Streams and watches of connections are handed out. -/
  | mint {l : Ledger} {streams watches : List Stamp} :
      (∀ stamp ∈ streams, stamp ∈ l.streams ∨ stamp ∈ l.resources) →
      (∀ stamp ∈ watches, stamp ∈ l.watches ∨ stamp ∈ l.resources) →
      Rest l { l with streams := streams, watches := watches }
  /-- Channels are registered. -/
  | signal {l : Ledger} {channels : List (ChannelId × EndpointId)} :
      Rest l { l with signaled := l.signaled ++ channels }
  /-- The endpoint is closed. -/
  | close {l : Ledger} : Rest l { l with closed := true }

/-- What may happen to the connections and to what holds on to them. -/
inductive Step : Ledger → Ledger → Prop
  | rest {l l' : Ledger} : Rest l l' → Step l l'
  /-- Connections evolve, outside of their handshakes. -/
  | polled {l : Ledger} {conns : Table ConnectionHandle ConnEntry} :
      (∀ handle e', conns.lookup handle = some e' →
        ∃ e, l.conns.lookup handle = some e ∧ e.Settles e') →
      Step l { l with conns := conns }
  /-- A handshake authenticates the expected key. An accepted connection is
      queued. -/
  | connected {l : Ledger} {handle : ConnectionHandle} {e e' : ConnEntry}
      {session : CryptoSession} {k : EndpointId} :
      l.conns.lookup handle = some e → e.Evolves e' → e.conn.session = none →
      e'.conn.session = some session → session.peerIdentity = some k → e'.peer = some k →
      (∀ p, e.expectedPeer = some p → k = p) → e'.connected = true →
      Step l { l with
        conns := l.conns.insert handle e'
        acceptQueue := l.acceptQueue ++ if e.acceptedSide then [(handle, e.epoch)] else [] }
  /-- A handshake authenticates another key. -/
  | mismatch {l : Ledger} {handle : ConnectionHandle} {e e' : ConnEntry} :
      l.conns.lookup handle = some e → e.Evolves e' → e.conn.session = none →
      e'.connected = e.connected → e'.error ≠ none →
      Step l { l with conns := l.conns.insert handle e' }

/-- The machine starts with no connection. -/
def machine : System Ledger where
  init := {⟨∅, 0, [], [], 0, 0, [], [], [], false⟩}
  step := Step

/-- The machine between two pollings of the connections. -/
def resting : System Ledger where
  init := machine.init
  step := Rest

/-- A run without polling is a run. -/
theorem machine_leads {l l' : Ledger} (h : resting.Leads l l') : machine.Leads l l' := by
  induction h with
  | refl => exact .refl
  | tail _ hst ih => exact ih.tail (.rest hst)

/-! ## The invariant -/

/-- The number of owners of the entry under `handle`: dial guards, its own
    handshake if it is accepted, elements of the queue, and connections of the
    application. -/
def owners (l : Ledger) (handle : ConnectionHandle) (e : ConnEntry) : ℕ :=
  (l.guards.map Prod.fst).count (handle, e.epoch) +
    (if e.acceptedSide && !e.connected then 1 else 0) +
    l.acceptQueue.count (handle, e.epoch) + l.resources.count (handle, e.epoch)

/-- A stamp is used by a guard, the queue, a connection or a stream. -/
def Used (l : Ledger) (stamp : Stamp) : Prop :=
  (∃ peer, (stamp, peer) ∈ l.guards) ∨ stamp ∈ l.acceptQueue ∨ stamp ∈ l.resources ∨
    stamp ∈ l.streams

/-- A stamp is held by what uses it, or by a watch. -/
def Held (l : Ledger) (stamp : Stamp) : Prop := l.Used stamp ∨ stamp ∈ l.watches

/-- The invariant of the ledger. -/
structure Inv (l : Ledger) : Prop where
  /-- The insertions are numbered, by their stamps and by their identities. -/
  epochs : l.insertions.map Insertion.epoch = List.range l.nextConnEpoch
  ids : l.insertions.map Insertion.id = List.range l.nextConnEpoch
  /-- Every entry is that of an insertion, -/
  logged : ∀ handle e, l.conns.lookup handle = some e → ⟨handle, e.epoch, e.conn.id⟩ ∈ l.insertions
  /-- and so is every holder. -/
  minted : ∀ stamp, l.Held stamp → ∃ id, ⟨stamp.1, stamp.2, id⟩ ∈ l.insertions
  sound : ∀ handle e, l.conns.lookup handle = some e → e.Sound
  /-- A connection accepted from a channel comes from the peer it was signaled
      with. -/
  signaled : ∀ handle e, l.conns.lookup handle = some e →
    ∀ id peer, e.conn.origin = .channel id peer → (id, peer) ∈ l.signaled
  /-- A guard holds a connection dialed to its peer. -/
  guarded : ∀ stamp peer, (stamp, peer) ∈ l.guards → ∀ e, l.Current stamp e →
    e.conn.origin = .dialed peer
  /-- The queue and the application hold connected connections. -/
  queued : ∀ stamp ∈ l.acceptQueue, ∀ e, l.Current stamp e → e.connected = true
  handed : ∀ stamp ∈ l.resources, ∀ e, l.Current stamp e → e.connected = true
  /-- A live entry has one owner. -/
  owned : ∀ handle e, l.conns.lookup handle = some e → e.Live → l.owners handle e = 1

variable {l l' : Ledger}

section Held

variable {stamp : Stamp}

theorem Used.guard {peer : EndpointId} (h : (stamp, peer) ∈ l.guards) : l.Used stamp :=
  .inl ⟨peer, h⟩

theorem Used.queue (h : stamp ∈ l.acceptQueue) : l.Used stamp := .inr (.inl h)

theorem Used.resource (h : stamp ∈ l.resources) : l.Used stamp := .inr (.inr (.inl h))

theorem Used.stream (h : stamp ∈ l.streams) : l.Used stamp := .inr (.inr (.inr h))

theorem Used.held (h : l.Used stamp) : l.Held stamp := .inl h

theorem Held.guard {peer : EndpointId} (h : (stamp, peer) ∈ l.guards) : l.Held stamp :=
  (Used.guard h).held

theorem Held.queue (h : stamp ∈ l.acceptQueue) : l.Held stamp := (Used.queue h).held

theorem Held.resource (h : stamp ∈ l.resources) : l.Held stamp := (Used.resource h).held

theorem Held.stream (h : stamp ∈ l.streams) : l.Held stamp := (Used.stream h).held

end Held

/-- A slot holds one entry. -/
theorem Current.unique {stamp : Stamp} {e e' : ConnEntry} (h : l.Current stamp e)
    (h' : l.Current stamp e') : e = e' :=
  Option.some.inj (h.1.symm.trans h'.1)

namespace Inv

/-- The stamp of an insertion was used. -/
theorem epoch_lt (hi : l.Inv) {i : Insertion} (h : i ∈ l.insertions) :
    i.epoch < l.nextConnEpoch := by
  rw [← List.mem_range, ← hi.epochs]
  exact List.mem_map_of_mem h

/-- The stamp of an entry was used. -/
theorem entry_lt (hi : l.Inv) {handle : ConnectionHandle} {e : ConnEntry}
    (h : l.conns.lookup handle = some e) : e.epoch < l.nextConnEpoch :=
  hi.epoch_lt (hi.logged handle e h)

/-- A stamp that is held was used. -/
theorem held_lt (hi : l.Inv) {stamp : Stamp} (h : l.Held stamp) : stamp.2 < l.nextConnEpoch := by
  obtain ⟨id, h⟩ := hi.minted stamp h
  exact hi.epoch_lt h

/-- No two insertions share a stamp. -/
theorem insertion_unique (hi : l.Inv) {i j : Insertion} (h : i ∈ l.insertions)
    (h' : j ∈ l.insertions) (he : i.epoch = j.epoch) : i = j := by
  have hnodup : (l.insertions.map Insertion.epoch).Nodup := hi.epochs ▸ List.nodup_range
  exact List.inj_on_of_nodup_map hnodup h h' he

/-- There are as many insertions as stamps. -/
theorem length_insertions (hi : l.Inv) : l.insertions.length = l.nextConnEpoch := by
  rw [← List.length_map Insertion.epoch, hi.epochs, List.length_range]

end Inv

/-! ### Insertions -/

section Insert

variable {handle : ConnectionHandle} {origin : Origin} {remote : SocketAddr}

/-- The entry that is inserted now is sound. -/
theorem fresh_sound (l : Ledger) (origin : Origin) (remote : SocketAddr) :
    (l.fresh origin remote).Sound :=
  ⟨rfl, rfl, nofun⟩

/-- The new guard holds the new entry. -/
theorem mem_freshGuard {g : Stamp × EndpointId} (h : g ∈ l.freshGuard handle origin) :
    g.1 = (handle, l.nextConnEpoch) ∧ origin = .dialed g.2 := by
  cases origin <;> rw [freshGuard] at h
  · rw [Multiset.mem_singleton.1 h]
    exact ⟨rfl, rfl⟩
  all_goals exact absurd h (Multiset.notMem_zero _)

/-- After an insertion, an entry is the new one, or was there in another slot. -/
theorem insert_lookup {handle' : ConnectionHandle} {e : ConnEntry}
    (h : (l.insert handle origin remote).conns.lookup handle' = some e) :
    (handle' = handle ∧ e = l.fresh origin remote) ∨
      (handle' ≠ handle ∧ l.conns.lookup handle' = some e) := by
  exact Table.lookup_insert_some.1 h

/-- What is current under a used stamp after an insertion was current before. -/
theorem current_of_insert {stamp : Stamp} {e : ConnEntry} (hs : stamp.2 < l.nextConnEpoch)
    (h : (l.insert handle origin remote).Current stamp e) : l.Current stamp e := by
  rcases insert_lookup h.1 with ⟨-, rfl⟩ | ⟨-, hl⟩
  · exact absurd h.2 (Nat.ne_of_gt hs)
  · exact ⟨hl, h.2⟩

/-- What is used after an insertion was used before, or is the new entry. -/
theorem used_of_insert {stamp : Stamp} (h : (l.insert handle origin remote).Used stamp) :
    l.Used stamp ∨ stamp = (handle, l.nextConnEpoch) := by
  rcases h with ⟨peer, h⟩ | h
  · rcases Multiset.mem_add.1 h with h | h
    · exact .inr (mem_freshGuard h).1
    · exact .inl (.guard h)
  · exact .inl (.inr h)

/-- So is what is held. -/
theorem held_of_insert {stamp : Stamp} (h : (l.insert handle origin remote).Held stamp) :
    l.Held stamp ∨ stamp = (handle, l.nextConnEpoch) := by
  rcases h with h | h
  · exact (used_of_insert h).imp_left Used.held
  · exact .inl (.inr h)

/-- The new entry is owned by its guard, or by its own handshake. -/
theorem Inv.owners_fresh (hi : l.Inv) :
    (l.insert handle origin remote).owners handle (l.fresh origin remote) = 1 := by
  have hheld : ¬l.Held (handle, l.nextConnEpoch) := fun h => Nat.lt_irrefl _ (hi.held_lt h)
  have hg : (l.guards.map Prod.fst).count (handle, l.nextConnEpoch) = 0 := by
    rw [Multiset.count_eq_zero, Multiset.mem_map]
    rintro ⟨⟨stamp, peer⟩, hg, rfl⟩
    exact hheld (.guard hg)
  have hq : l.acceptQueue.count (handle, l.nextConnEpoch) = 0 :=
    List.count_eq_zero.2 fun h => hheld (.queue h)
  have hr : l.resources.count (handle, l.nextConnEpoch) = 0 :=
    Multiset.count_eq_zero.2 fun h => hheld (.resource h)
  cases origin <;>
    simp [owners, Ledger.insert, freshGuard, fresh, ConnEntry.new, Origin.accepted, hg, hq, hr]

/-- The owners of an entry in another slot stay. -/
theorem owners_insert {handle' : ConnectionHandle} (hne : handle' ≠ handle) (e : ConnEntry) :
    (l.insert handle origin remote).owners handle' e = l.owners handle' e := by
  have hg : ((l.freshGuard handle origin).map Prod.fst).count (handle', e.epoch) = 0 := by
    rw [Multiset.count_eq_zero, Multiset.mem_map]
    rintro ⟨g, hg, heq⟩
    exact hne (Prod.mk.inj (heq.symm.trans (mem_freshGuard hg).1)).1
  simp only [owners, Ledger.insert, Multiset.map_add, Multiset.count_add, hg, Nat.zero_add]

/-- An insertion keeps the invariant. -/
theorem Inv.insert (hi : l.Inv)
    (hchannel : ∀ id peer, origin = .channel id peer → (id, peer) ∈ l.signaled) :
    (l.insert handle origin remote).Inv where
  epochs := by
    simp only [Ledger.insert, List.map_append, hi.epochs, List.range_succ]
    rfl
  ids := by
    simp only [Ledger.insert, List.map_append, hi.ids, List.range_succ, List.map_cons, List.map_nil,
      hi.length_insertions]
  logged := by
    intro handle' e h
    rcases insert_lookup h with ⟨rfl, rfl⟩ | ⟨-, h⟩
    · exact List.mem_append_right _ List.mem_cons_self
    · exact List.mem_append_left _ (hi.logged handle' e h)
  minted := by
    intro stamp h
    rcases held_of_insert h with h | rfl
    · obtain ⟨id, h⟩ := hi.minted stamp h
      exact ⟨id, List.mem_append_left _ h⟩
    · exact ⟨_, List.mem_append_right _ List.mem_cons_self⟩
  sound := by
    intro handle' e h
    rcases insert_lookup h with ⟨rfl, rfl⟩ | ⟨-, h⟩
    · exact l.fresh_sound origin remote
    · exact hi.sound handle' e h
  signaled := by
    intro handle' e h
    rcases insert_lookup h with ⟨rfl, rfl⟩ | ⟨-, h⟩
    · exact hchannel
    · exact hi.signaled handle' e h
  guarded := by
    intro stamp peer hg e h
    rcases Multiset.mem_add.1 hg with hg | hg
    · -- The new guard: what is current under its stamp is the new entry.
      obtain ⟨hstamp, rfl⟩ := mem_freshGuard hg
      dsimp only at hstamp
      rcases insert_lookup h.1 with ⟨-, rfl⟩ | ⟨hne, -⟩
      · rfl
      · exact absurd (congrArg Prod.fst hstamp) hne
    · exact hi.guarded stamp peer hg e (current_of_insert (hi.held_lt (.guard hg)) h)
  queued := fun stamp hq e h => hi.queued stamp hq e (current_of_insert (hi.held_lt (.queue hq)) h)
  handed := fun stamp hr e h =>
    hi.handed stamp hr e (current_of_insert (hi.held_lt (.resource hr)) h)
  owned := by
    intro handle' e h hlive
    rcases insert_lookup h with ⟨rfl, rfl⟩ | ⟨hne, h⟩
    · exact hi.owners_fresh
    · exact (owners_insert hne e).trans (hi.owned handle' e h hlive)

end Insert

/-! ### Evolution -/

/-- Outside of its handshake, an entry keeps its owners. -/
theorem owners_settles {handle : ConnectionHandle} {e e' : ConnEntry} (h : e.Settles e') :
    l.owners handle e' = l.owners handle e := by
  rw [owners, owners, h.epoch, h.acceptedSide, h.connected]

/-- Connections that evolve outside of their handshakes keep the invariant. -/
theorem Inv.settle (hi : l.Inv) {conns : Table ConnectionHandle ConnEntry}
    (h : ∀ handle e', conns.lookup handle = some e' →
      ∃ e, l.conns.lookup handle = some e ∧ e.Settles e') : Inv { l with conns := conns } := by
  -- What is current was current before, under the same stamp.
  have hcurrent : ∀ {stamp e'}, Current { l with conns := conns } stamp e' →
      ∃ e, l.Current stamp e ∧ e.Settles e' := by
    rintro stamp e' ⟨hl, he⟩
    obtain ⟨e, hl, hs⟩ := h stamp.1 e' hl
    exact ⟨e, ⟨hl, hs.epoch.symm.trans he⟩, hs⟩
  refine { hi with
    logged := ?_, minted := ?_, sound := ?_, signaled := ?_, guarded := ?_, queued := ?_
    handed := ?_, owned := ?_ }
  · intro handle e' hl
    obtain ⟨e, hl, hs⟩ := h handle e' hl
    rw [hs.epoch, hs.id]
    exact hi.logged handle e hl
  · exact hi.minted
  · intro handle e' hl
    obtain ⟨e, hl, hs⟩ := h handle e' hl
    exact hs.sound (hi.sound handle e hl)
  · intro handle e' hl
    obtain ⟨e, hl, hs⟩ := h handle e' hl
    rw [hs.origin]
    exact hi.signaled handle e hl
  · intro stamp peer hg e' hc
    obtain ⟨e, hc, hs⟩ := hcurrent hc
    rw [hs.origin]
    exact hi.guarded stamp peer hg e hc
  · intro stamp hq e' hc
    obtain ⟨e, hc, hs⟩ := hcurrent hc
    rw [hs.connected]
    exact hi.queued stamp hq e hc
  · intro stamp hr e' hc
    obtain ⟨e, hc, hs⟩ := hcurrent hc
    rw [hs.connected]
    exact hi.handed stamp hr e hc
  · intro handle e' hl hlive
    obtain ⟨e, hl, hs⟩ := h handle e' hl
    exact (owners_settles hs).trans (hi.owned handle e hl (hs.live hlive))

section Handshake

variable {handle : ConnectionHandle} {e e' : ConnEntry} {extra : List Stamp}

/-- An entry that completes or fails its handshake keeps the invariant, if it
    stays sound and owned, and only a connected entry is queued. -/
theorem Inv.change (hi : l.Inv) (hl : l.conns.lookup handle = some e) (he : e.Evolves e')
    (hextra : ∀ stamp ∈ extra, stamp = (handle, e.epoch) ∧ e'.connected = true)
    (hsound : e'.Sound) (hconn : e.connected = true → e'.connected = true)
    (howned : e'.Live → l.owners handle e = 1 →
      owners { l with acceptQueue := l.acceptQueue ++ extra } handle e' = 1) :
    Inv { l with conns := l.conns.insert handle e', acceptQueue := l.acceptQueue ++ extra } := by
  have hlookup : ∀ {handle' x}, (l.conns.insert handle e').lookup handle' = some x →
      (handle' = handle ∧ x = e') ∨ (handle' ≠ handle ∧ l.conns.lookup handle' = some x) :=
    Table.lookup_insert_some.1
  have hcurrent : ∀ {stamp x}, Current { l with
      conns := l.conns.insert handle e', acceptQueue := l.acceptQueue ++ extra } stamp x →
      (l.Current stamp e ∧ x = e') ∨ (stamp.1 ≠ handle ∧ l.Current stamp x) := by
    rintro stamp x ⟨h, hx⟩
    rcases hlookup h with ⟨hh, rfl⟩ | ⟨hh, h⟩
    · exact .inl ⟨⟨hh ▸ hl, he.epoch.symm.trans hx⟩, rfl⟩
    · exact .inr ⟨hh, h, hx⟩
  refine { hi with
    logged := ?_, minted := ?_, sound := ?_, signaled := ?_, guarded := ?_, queued := ?_
    handed := ?_, owned := ?_ }
  · intro handle' x h
    rcases hlookup h with ⟨rfl, rfl⟩ | ⟨-, h⟩
    · rw [he.epoch, he.id]
      exact hi.logged handle' e hl
    · exact hi.logged handle' x h
  · rintro stamp ((h | h | h) | h)
    · exact hi.minted stamp (.inl (.inl h))
    · rcases List.mem_append.1 h with h | h
      · exact hi.minted stamp (.queue h)
      · rw [(hextra stamp h).1]
        exact ⟨_, hi.logged handle e hl⟩
    · exact hi.minted stamp (.inl (.inr (.inr h)))
    · exact hi.minted stamp (.inr h)
  · intro handle' x h
    rcases hlookup h with ⟨rfl, rfl⟩ | ⟨-, h⟩
    · exact hsound
    · exact hi.sound handle' x h
  · intro handle' x h
    rcases hlookup h with ⟨rfl, rfl⟩ | ⟨-, h⟩
    · rw [he.origin]
      exact hi.signaled handle' e hl
    · exact hi.signaled handle' x h
  · intro stamp peer hg x h
    rcases hcurrent h with ⟨hold, hx⟩ | ⟨-, hold⟩
    · rw [hx, he.origin]
      exact hi.guarded stamp peer hg e hold
    · exact hi.guarded stamp peer hg x hold
  · intro stamp hq x h
    rcases List.mem_append.1 hq with hq | hq <;> rcases hcurrent h with ⟨hold, hx⟩ | ⟨hne, hold⟩
    · exact hx ▸ hconn (hi.queued stamp hq e hold)
    · exact hi.queued stamp hq x hold
    · exact hx ▸ (hextra stamp hq).2
    · exact absurd (congrArg Prod.fst (hextra stamp hq).1) hne
  · intro stamp hr x h
    rcases hcurrent h with ⟨hold, hx⟩ | ⟨-, hold⟩
    · exact hx ▸ hconn (hi.handed stamp hr e hold)
    · exact hi.handed stamp hr x hold
  · intro handle' x h hlive
    rcases hlookup h with ⟨rfl, rfl⟩ | ⟨hne, h⟩
    · exact howned hlive (hi.owned handle' e hl (he.live hlive))
    · -- The queued stamp is that of another slot.
      have hcount : extra.count (handle', x.epoch) = 0 := by
        rw [List.count_eq_zero]
        exact fun hmem => hne (congrArg Prod.fst (hextra _ hmem).1)
      have hold := hi.owned handle' x h hlive
      rw [owners] at hold ⊢
      rw [List.count_append, hcount, Nat.add_zero]
      exact hold

/-- An entry without a session is not connected. -/
theorem Inv.not_connected (hi : l.Inv) (hl : l.conns.lookup handle = some e)
    (hs : e.conn.session = none) : e.connected = false := by
  rw [← Bool.not_eq_true]
  intro hc
  obtain ⟨session, _, hsession, -⟩ := (hi.sound handle e hl).authenticated hc
  rw [hs] at hsession
  cases hsession

/-- A completed handshake moves an accepted connection from its handshake to the
    queue. -/
theorem owners_connected (h : e.Evolves e') (hc : e.connected = false) (hc' : e'.connected = true) :
    owners { l with acceptQueue :=
      l.acceptQueue ++ if e.acceptedSide then [(handle, e.epoch)] else [] } handle e' =
      l.owners handle e := by
  simp only [owners, h.epoch, h.acceptedSide, hc, hc', List.count_append]
  cases e.acceptedSide
  · simp
  · simp only [Bool.not_true, Bool.and_false, Bool.not_false, Bool.and_true, if_true,
      List.count_singleton_self, Bool.false_eq_true, if_false]
    omega

end Handshake

/-! ### Hand-overs -/

section HandOver

variable {stamp : Stamp}

/-- Changes of the holders keep the invariant, if what is held was held, the
    application is handed what is connected, and the owners stay. -/
theorem Inv.holders (hi : l.Inv) {guards : Multiset (Stamp × EndpointId)} {queue : List Stamp}
    {resources : Multiset Stamp} (hg : ∀ g ∈ guards, g ∈ l.guards)
    (hq : ∀ stamp ∈ queue, stamp ∈ l.acceptQueue)
    (hr : ∀ stamp ∈ resources, stamp ∈ l.resources ∨
      l.Held stamp ∧ ∀ e, l.Current stamp e → e.connected = true)
    (howned : ∀ handle e, l.conns.lookup handle = some e → e.Live →
      owners { l with guards := guards, acceptQueue := queue, resources := resources } handle e =
        l.owners handle e) :
    Inv { l with guards := guards, acceptQueue := queue, resources := resources } := by
  refine { hi with
    minted := ?_, guarded := fun stamp peer h => hi.guarded stamp peer (hg _ h)
    queued := fun stamp h => hi.queued stamp (hq _ h), handed := ?_, owned := ?_ }
  · rintro stamp ((⟨peer, h⟩ | h | h | h) | h)
    · exact hi.minted stamp (.guard (hg _ h))
    · exact hi.minted stamp (.queue (hq _ h))
    · rcases hr stamp h with h | h
      · exact hi.minted stamp (.resource h)
      · exact hi.minted stamp h.1
    · exact hi.minted stamp (.stream h)
    · exact hi.minted stamp (.inr h)
  · exact fun stamp h e hc => (hr stamp h).elim (fun h => hi.handed stamp h e hc) fun h => h.2 e hc
  · exact fun handle e hl hlive => (howned handle e hl hlive).trans (hi.owned handle e hl hlive)

end HandOver

/-- What happens without polling keeps the invariant. -/
theorem Inv.rest (hi : l.Inv) (hst : Rest l l') : l'.Inv := by
  cases hst with
  | inserted _ hchannel => exact hi.insert hchannel
  | settle h =>
    refine hi.settle fun handle e' hl => ?_
    obtain ⟨e, hl, he⟩ := h handle e' hl
    exact ⟨e, hl, he.toSettles⟩
  | @completed stamp peer guards e hg hc hconn =>
    refine hi.holders (fun g h => hg ▸ Multiset.mem_cons_of_mem h) (fun _ h => h)
      (fun st h => ?_) fun handle x _ _ => ?_
    · rcases Multiset.mem_cons.1 h with rfl | h
      · exact .inr ⟨.guard (hg ▸ Multiset.mem_cons_self _ _), fun x hx => hc.unique hx ▸ hconn⟩
      · exact .inl h
    · -- The guard of the dial gives way to the resource.
      rw [owners, owners, hg, Multiset.map_cons, Multiset.count_cons, Multiset.count_cons]
      dsimp only
      omega
  | @released stamp peer guards hg hdead =>
    refine hi.holders (fun g h => hg ▸ Multiset.mem_cons_of_mem h) (fun _ h => h)
      (fun _ h => .inl h) fun handle x hl hlive => ?_
    -- What the guard held is not live, so it needs no owner.
    have hne : (handle, x.epoch) ≠ stamp := fun h => hdead x (h ▸ ⟨hl, rfl⟩) hlive
    simp only [owners, hg, Multiset.map_cons, Multiset.count_cons_of_ne hne]
  | @accept stamp rest e hq hc =>
    refine hi.holders (fun _ h => h) (fun st h => hq ▸ List.mem_cons_of_mem _ h)
      (fun st h => ?_) fun handle x _ _ => ?_
    · rcases Multiset.mem_cons.1 h with rfl | h
      · have hmem : st ∈ l.acceptQueue := hq ▸ List.mem_cons_self
        exact .inr ⟨.queue hmem, hi.queued st hmem⟩
      · exact .inl h
    · -- The place in the queue gives way to the resource.
      rw [owners, owners, hq, Multiset.count_cons, List.count_cons]
      simp only [beq_iff_eq, @eq_comm _ stamp]
      omega
  | @skip stamp rest hq hdead =>
    refine hi.holders (fun _ h => h) (fun st h => hq ▸ List.mem_cons_of_mem _ h)
      (fun _ h => .inl h) fun handle x hl hlive => ?_
    have hne : stamp ≠ (handle, x.epoch) := fun h => hdead x (h ▸ ⟨hl, rfl⟩)
    simp only [owners, hq, List.count_cons_of_ne hne]
  | @drop stamp resources hr hdead =>
    refine hi.holders (fun _ h => h) (fun _ h => h)
      (fun _ h => .inl (hr ▸ Multiset.mem_cons_of_mem h)) fun handle x hl hlive => ?_
    have hne : (handle, x.epoch) ≠ stamp := fun h => hdead x (h ▸ ⟨hl, rfl⟩) hlive
    simp only [owners, hr, Multiset.count_cons_of_ne hne]
  | mint hs hw =>
    refine { hi with minted := ?_ }
    rintro stamp ((h | h | h | h) | h)
    · exact hi.minted stamp (.inl (.inl h))
    · exact hi.minted stamp (.queue h)
    · exact hi.minted stamp (.resource h)
    · rcases hs stamp h with h | h
      · exact hi.minted stamp (.stream h)
      · exact hi.minted stamp (.resource h)
    · rcases hw stamp h with h | h
      · exact hi.minted stamp (.inr h)
      · exact hi.minted stamp (.resource h)
  | signal =>
    exact { hi with
      signaled := fun handle e hl id peer ho =>
        List.mem_append_left _ (hi.signaled handle e hl id peer ho) }
  | close => exact { hi with minted := hi.minted }

/-- Every step keeps the invariant. -/
theorem Inv.step (hi : l.Inv) (hst : Step l l') : l'.Inv := by
  cases hst with
  | rest h => exact hi.rest h
  | polled h => exact hi.settle h
  | @connected handle e e' session k hl he hs hs' hk hp hexp hc =>
    have hnot := hi.not_connected hl hs
    refine hi.change hl he (fun stamp h => ?_) ?_ (fun _ => hc) fun _ ho => ?_
    · split at h
      · exact ⟨List.mem_singleton.1 h, hc⟩
      · exact absurd h List.not_mem_nil
    · have hsound := hi.sound handle e hl
      refine ⟨by rw [he.expectedPeer, he.origin, hsound.claim],
        by rw [he.acceptedSide, he.origin, hsound.side], fun _ => ⟨session, k, hs', hk, hp, ?_⟩⟩
      rwa [he.expectedPeer]
    · exact (owners_connected he hnot hc).trans ho
  | @mismatch handle e e' hl he hs hc herr =>
    have hnot := hi.not_connected hl hs
    have hsound := hi.sound handle e hl
    have hempty := hi.change hl he (List.forall_mem_nil _)
      ⟨by rw [he.expectedPeer, he.origin, hsound.claim],
        by rw [he.acceptedSide, he.origin, hsound.side],
        fun h => absurd (hc.symm.trans h) (by rw [hnot]; exact Bool.false_ne_true)⟩
      (fun h => hc.trans h) (fun hlive => absurd hlive.error herr)
    rwa [List.append_nil] at hempty

/-- The invariant, in the initial state. -/
theorem Inv.init : Inv ⟨∅, 0, [], [], 0, 0, [], [], [], false⟩ where
  epochs := rfl
  ids := rfl
  logged := fun _ _ h => nomatch h
  minted := by
    rintro stamp ((⟨peer, h⟩ | h | h | h) | h)
    · exact absurd h (Multiset.notMem_zero _)
    · exact absurd h List.not_mem_nil
    · exact absurd h (Multiset.notMem_zero _)
    · exact absurd h List.not_mem_nil
    · exact absurd h List.not_mem_nil
  sound := fun _ _ h => nomatch h
  signaled := fun _ _ h => nomatch h
  guarded := fun _ _ h => absurd h (Multiset.notMem_zero _)
  queued := fun _ h => absurd h List.not_mem_nil
  handed := fun _ h => absurd h (Multiset.notMem_zero _)
  owned := fun _ _ h => nomatch h

/-- The invariant holds in every reachable state of the machine. -/
theorem Inv.reachable (h : machine.Reachable l) : l.Inv :=
  h.invariant (fun _ h => h ▸ .init) fun _ _ _ hst hi => hi.step hst

/-! ## Runs -/

/-- What a run may do: an entry under a stamp that was used has evolved from an
    entry of the same slot. -/
structure Advances (l l' : Ledger) : Prop where
  epoch : l.nextConnEpoch ≤ l'.nextConnEpoch
  entry : ∀ handle e', l'.conns.lookup handle = some e' → e'.epoch < l.nextConnEpoch →
    ∃ e, l.conns.lookup handle = some e ∧ e.Evolves e'

namespace Advances

theorem refl (l : Ledger) : Advances l l := ⟨le_refl _, fun _ e' h _ => ⟨e', h, .refl e'⟩⟩

theorem trans {l₁ l₂ l₃ : Ledger} (h₁ : Advances l₁ l₂) (h₂ : Advances l₂ l₃) :
    Advances l₁ l₃ := by
  refine ⟨h₁.epoch.trans h₂.epoch, fun handle e₃ hl hlt => ?_⟩
  obtain ⟨e₂, hl₂, he₂⟩ := h₂.entry handle e₃ hl (lt_of_lt_of_le hlt h₁.epoch)
  obtain ⟨e₁, hl₁, he₁⟩ := h₁.entry handle e₂ hl₂ (he₂.epoch ▸ hlt)
  exact ⟨e₁, hl₁, he₁.trans he₂⟩

/-- An entry of one slot evolves. -/
theorem of_insert {handle : ConnectionHandle} {e e' : ConnEntry}
    (hl : l.conns.lookup handle = some e) (he : e.Evolves e')
    (hn : l'.nextConnEpoch = l.nextConnEpoch) (hc : l'.conns = l.conns.insert handle e') :
    Advances l l' := by
  refine ⟨le_of_eq hn.symm, fun handle' x hx _ => ?_⟩
  rw [hc] at hx
  rcases Table.lookup_insert_some.1 hx with ⟨rfl, rfl⟩ | ⟨-, hx⟩
  · exact ⟨e, hl, he⟩
  · exact ⟨x, hx, .refl x⟩

end Advances

/-- What happens without polling advances. -/
theorem Rest.advances (h : Rest l l') : Advances l l' := by
  cases h with
  | inserted =>
    refine ⟨Nat.le_succ _, fun handle' x hx hlt => ?_⟩
    rcases insert_lookup hx with ⟨-, rfl⟩ | ⟨-, hx⟩
    · exact absurd hlt (Nat.lt_irrefl _)
    · exact ⟨x, hx, .refl x⟩
  | settle h =>
    refine ⟨le_refl _, fun handle x hx _ => ?_⟩
    obtain ⟨e, hl, he⟩ := h handle x hx
    exact ⟨e, hl, he.toEvolves⟩
  | _ => exact ⟨le_refl _, fun _ x hx _ => ⟨x, hx, .refl x⟩⟩

/-- Every step advances. -/
theorem Step.advances (h : Step l l') : Advances l l' := by
  cases h with
  | rest h => exact h.advances
  | polled h =>
    refine ⟨le_refl _, fun handle x hx _ => ?_⟩
    obtain ⟨e, hl, he⟩ := h handle x hx
    exact ⟨e, hl, he.toEvolves⟩
  | connected hl he => exact .of_insert hl he rfl rfl
  | mismatch hl he => exact .of_insert hl he rfl rfl

/-! ### Runs without polling -/

/-- What a run without polling may do: an entry is one of before, with the same error, and what
    is used or held was used or held before; or it was made before the endpoint closed. -/
structure Follows (l l' : Ledger) : Prop where
  closed : l.closed = true → l'.closed = true
  entry : ∀ handle e', l'.conns.lookup handle = some e' →
    (∃ e, l.conns.lookup handle = some e ∧ e'.error = e.error ∧ e'.drained = e.drained ∧
      (l'.Used (handle, e'.epoch) → l.Used (handle, e.epoch)) ∧
      (l'.Held (handle, e'.epoch) → l.Held (handle, e.epoch))) ∨
    l.closed = false ∧ e'.drained = false

namespace Follows

theorem refl (l : Ledger) : Follows l l :=
  ⟨id, fun _ e' hl => .inl ⟨e', hl, rfl, rfl, id, id⟩⟩

theorem trans {l₁ l₂ l₃ : Ledger} (h₁ : Follows l₁ l₂) (h₂ : Follows l₂ l₃) : Follows l₁ l₃ := by
  refine ⟨h₂.closed ∘ h₁.closed, fun handle e₃ hl₃ => ?_⟩
  rcases h₂.entry handle e₃ hl₃ with ⟨e₂, hl₂, herr₂, hd₂, hu₂, hh₂⟩ | ⟨hopen, hd⟩
  · rw [herr₂, hd₂]
    refine (h₁.entry handle e₂ hl₂).imp_left ?_
    rintro ⟨e₁, hl₁, herr₁, hd₁, hu₁, hh₁⟩
    exact ⟨e₁, hl₁, herr₁, hd₁, hu₁ ∘ hu₂, hh₁ ∘ hh₂⟩
  · refine .inr ⟨?_, hd⟩
    rw [← Bool.not_eq_true] at hopen ⊢
    exact fun hc => hopen (h₁.closed hc)

/-- The holders change, and hold nothing new. -/
theorem of_used (hc : l'.conns = l.conns) (hclosed : l.closed = true → l'.closed = true)
    (hused : ∀ stamp, l'.Used stamp → l.Used stamp)
    (hwatches : ∀ stamp ∈ l'.watches, l.Held stamp) : Follows l l' := by
  refine ⟨hclosed, fun handle e' hl => .inl ⟨e', hc ▸ hl, rfl, rfl, hused _, ?_⟩⟩
  rintro (h | h)
  · exact (hused _ h).held
  · exact hwatches _ h

end Follows

/-- What happens without polling. -/
theorem Rest.follows (h : Rest l l') : Follows l l' := by
  cases h with
  | @inserted handle origin remote hopen =>
    refine ⟨id, fun handle' e' hl => ?_⟩
    rcases insert_lookup hl with ⟨-, rfl⟩ | ⟨hne, hl⟩
    · -- A new connection, on an endpoint that is open.
      exact .inr ⟨hopen, rfl⟩
    · have hne' : (handle', e'.epoch) ≠ (handle, l.nextConnEpoch) :=
        fun heq => hne (congrArg Prod.fst heq)
      exact .inl ⟨e', hl, rfl, rfl, fun h => (used_of_insert h).resolve_right hne',
        fun h => (held_of_insert h).resolve_right hne'⟩
  | settle h =>
    refine ⟨id, fun handle e' hl => ?_⟩
    obtain ⟨e, hl, he⟩ := h handle e' hl
    refine .inl ⟨e, hl, he.kept.1, he.kept.2, ?_, ?_⟩ <;> rw [he.epoch] <;> exact id
  | completed hg =>
    refine .of_used rfl id ?_ fun _ => .inr
    rintro stamp (⟨peer, h⟩ | h | h | h)
    · exact .guard (hg ▸ Multiset.mem_cons_of_mem h)
    · exact .queue h
    · rcases Multiset.mem_cons.1 h with rfl | h
      · exact .guard (hg ▸ Multiset.mem_cons_self _ _)
      · exact .resource h
    · exact .stream h
  | released hg =>
    refine .of_used rfl id ?_ fun _ => .inr
    rintro stamp (⟨peer, h⟩ | h)
    · exact .guard (hg ▸ Multiset.mem_cons_of_mem h)
    · exact .inr h
  | accept hq =>
    refine .of_used rfl id ?_ fun _ => .inr
    rintro stamp (h | h | h | h)
    · exact .inl h
    · exact .queue (hq ▸ List.mem_cons_of_mem _ h)
    · rcases Multiset.mem_cons.1 h with rfl | h
      · exact .queue (hq ▸ List.mem_cons_self)
      · exact .resource h
    · exact .stream h
  | skip hq =>
    refine .of_used rfl id ?_ fun _ => .inr
    rintro stamp (h | h | h)
    · exact .inl h
    · exact .queue (hq ▸ List.mem_cons_of_mem _ h)
    · exact .inr (.inr h)
  | drop hr =>
    refine .of_used rfl id ?_ fun _ => .inr
    rintro stamp (h | h | h | h)
    · exact .inl h
    · exact .queue h
    · exact .resource (hr ▸ Multiset.mem_cons_of_mem h)
    · exact .stream h
  | mint hs hw =>
    refine .of_used rfl id ?_ fun stamp h => (hw stamp h).elim .inr .resource
    rintro stamp (h | h | h | h)
    · exact .inl h
    · exact .queue h
    · exact .resource h
    · exact (hs stamp h).elim .stream .resource
  | signal => exact .of_used rfl id (fun _ => id) fun _ => .inr
  | close => exact .of_used rfl (fun _ => rfl) (fun _ => id) fun _ => .inr

/-- A run without polling. -/
theorem resting_follows (h : resting.Leads l l') : Follows l l' := by
  induction h with
  | refl => exact .refl l
  | tail _ hst ih => exact ih.trans (Rest.follows hst)

end Ledger

end IrohEndpoint
