import IrohEndpoint.Connections

/-!
# Whose a connection is

What the ledger of connections says about the endpoint, in every reachable
state and along every run:

* `authenticated_reachable`: a connection is surfaced only with the key that its
  handshake verified, and that its origin claims;
* `stamped_reachable`: what was minted for a connection reaches that connection
  or nothing, and a connection that is closed stays closed;
* `owned_reachable`: a live connection has exactly one owner.
-/

namespace IrohEndpoint

open Transition

/-! ## What holds on to a connection -/

/-- The guards are those of the calls that wait for their handshakes. -/
theorem mem_guardsOf {connects : Table TaskId ConnectTask} {handle : ConnectionHandle} {epoch : ℕ}
    {peer : EndpointId} :
    ((handle, epoch), peer) ∈ guardsOf connects ↔ ∃ tid task, connects.lookup tid = some task ∧
      task.phase = .parked handle epoch ∧ task.peer = peer := by
  have hguard : ∀ task : ConnectTask, ((handle, epoch), peer) ∈ task.guard ↔
      task.phase = .parked handle epoch ∧ task.peer = peer := by
    intro task
    rw [ConnectTask.guard]
    split <;> rename_i hp
    · rw [Multiset.mem_singleton, hp]
      constructor
      · intro h
        cases h
        exact ⟨rfl, rfl⟩
      · rintro ⟨h, rfl⟩
        cases h
        rfl
    · exact ⟨fun h => absurd h (Multiset.notMem_zero _), fun h => absurd h.1 (hp handle epoch)⟩
  rw [guardsOf, Multiset.mem_bind]
  constructor
  · rintro ⟨task, hmem, h⟩
    obtain ⟨tid, hl⟩ := Table.mem_values.1 (Multiset.mem_coe.1 hmem)
    exact ⟨tid, task, hl, (hguard task).1 h⟩
  · rintro ⟨tid, task, hl, h⟩
    exact ⟨task, Multiset.mem_coe.2 (Table.mem_values.2 ⟨tid, hl⟩), (hguard task).2 h⟩

/-- The stamps of the connections that the application holds. -/
theorem mem_resourcesOf {connections : Table ResId ConnectionRes} {stamp : Stamp} :
    stamp ∈ resourcesOf connections ↔
      ∃ rid res, connections.lookup rid = some res ∧ res.stamp = stamp := by
  rw [resourcesOf, Multiset.mem_map]
  constructor
  · rintro ⟨res, hmem, h⟩
    obtain ⟨rid, hl⟩ := Table.mem_values.1 (Multiset.mem_coe.1 hmem)
    exact ⟨rid, res, hl, h⟩
  · rintro ⟨rid, res, hl, h⟩
    exact ⟨res, Multiset.mem_coe.2 (Table.mem_values.2 ⟨rid, hl⟩), h⟩

/-! ## Authentication -/

/-- Between `connects` and `connects'`, no call was handed a connection. -/
def NoneDone (connects connects' : Table TaskId ConnectTask) : Prop :=
  ∀ tid task rid, connects'.lookup tid = some task → task.phase = .done (.ok rid) →
    connects.lookup tid = some task

/-- A call goes on, without a connection. -/
theorem NoneDone.insert {connects : Table TaskId ConnectTask} {tid : TaskId} {task : ConnectTask}
    (h : ∀ rid, task.phase ≠ .done (.ok rid)) : NoneDone connects (connects.insert tid task) := by
  intro tid' task' rid hl hd
  rcases Table.lookup_insert_some.1 hl with ⟨-, rfl⟩ | ⟨-, hl⟩
  · exact absurd hd (h rid)
  · exact hl

/-- A call is cancelled. -/
theorem NoneDone.erase (connects : Table TaskId ConnectTask) (tid : TaskId) :
    NoneDone connects (connects.erase tid) := by
  exact fun _ _ _ hl _ => (Table.lookup_erase_some.1 hl).2

/-- A step of a `connect` call hands out a connection only if its handshake is
    complete. -/
theorem ConnectStep.handles {s s' : Sys} (h : ConnectStep s s') :
    (s'.connections = s.connections ∧ NoneDone s.connects s'.connects) ∨
    (∃ tid task handle epoch rid, s.connects.lookup tid = some task ∧
      task.phase = .parked handle epoch ∧ s.st.connectCheck handle epoch = some (.ok ()) ∧
      s.connections.lookup rid = none ∧
      s' = Sys.pause { s with connections := s.connections.insert rid ⟨handle, epoch⟩ }
        tid task (.done (.ok rid))) := by
  cases h with
  | refused => exact .inl ⟨rfl, fun _ _ _ hl _ => hl⟩
  | connected _ hl hp hc hr => exact .inr ⟨_, _, _, _, _, hl, hp, hc, hr, rfl⟩
  | cancelOpening | cancelWaiting | cancelParked => exact .inl ⟨rfl, .erase _ _⟩
  | skip => exact .inl ⟨rfl, .insert fun rid => by cases ‹Target› <;> nofun⟩
  | found | opened | woken => exact .inl ⟨rfl, .insert fun rid => by cases ‹Target› <;> nofun⟩
  | _ => exact .inl ⟨rfl, .insert (by nofun)⟩

/-- What an `endpoint-id` argument was decoded to. -/
theorem EndpointId.toList_of_ofBytes {bytes : Bytes} {peer : EndpointId}
    (h : EndpointId.ofBytes bytes = .ok peer) : peer.toList = bytes := by
  rw [EndpointId.ofBytes] at h
  split at h <;> cases h
  rfl

/-- What `accept` hands out is current. -/
theorem State.acceptCheck_current {s s' : State} {handle : ConnectionHandle} {epoch : ℕ}
    (h : s.acceptCheck = (s', some (.ok (handle, epoch)))) :
    ∃ e, s'.entryFor handle epoch = some e := by
  rw [acceptCheck] at h
  split at h <;> rename_i hp
  · cases h
    exact popCurrent_current hp
  · split at h <;> cases h

/-- Peer authentication is not bypassed. -/
structure Authenticated (s : Sys) : Prop where
  /-- A connected entry has the key that its session verified, which is the
      expected one. -/
  verified : ∀ handle e, s.st.conns.lookup handle = some e → e.connected = true →
    ∃ session k, e.conn.session = some session ∧ session.peerIdentity = some k ∧
      e.peer = some k ∧ ∀ p, e.expectedPeer = some p → k = p
  /-- The expected key is that of the dialed peer, of the relay's source, or of
      the peer of the channel, and only a connection from UDP has none. -/
  claimed : ∀ handle e, s.st.conns.lookup handle = some e → e.expectedPeer = e.conn.origin.claim
  unclaimed : ∀ handle e, s.st.conns.lookup handle = some e → e.expectedPeer = none →
    e.conn.origin = .udp
  /-- A `connect` call waits for a connection to the peer it was called with. -/
  dialed : ∀ tid task handle epoch e, s.connects.lookup tid = some task →
    task.phase = .parked handle epoch → s.st.entryFor handle epoch = some e →
    e.conn.origin = .dialed task.peer ∧ task.peer.toList = task.addr.endpointId
  /-- A connection from a channel comes from the peer whose session registered
      the channel. -/
  signaled : ∀ handle e id peer, s.st.conns.lookup handle = some e →
    e.conn.origin = .channel id peer →
    ∃ reg ∈ s.registrations, reg.id = id ∧ reg.session.peer = peer
  /-- A session with another key is never surfaced. -/
  refused : ∀ handle e session p, s.st.conns.lookup handle = some e →
    e.conn.session = some session → e.expectedPeer = some p → session.peerIdentity ≠ some p →
    e.connected = false ∧ (handle, e.epoch) ∉ s.st.acceptQueue
  /-- A `connect` call returns a connection only with the peer it was called
      with. -/
  connect : ∀ s', Step s s' → ∀ tid task task' rid, s.connects.lookup tid = some task →
    (∀ result, task.phase ≠ .done result) → s'.connects.lookup tid = some task' →
    task'.phase = .done (.ok rid) →
    task'.addr = task.addr ∧ ∃ res, s'.connections.lookup rid = some res ∧
      s'.st.connectionPeer res.handle res.epoch = task.addr.endpointId
  /-- A connection that is handed out, by `accept` or by `connect`, is
      connected. -/
  handed : ∀ s', Step s s' → ∀ rid res, s.connections.lookup rid = none →
    s'.connections.lookup rid = some res →
    ∃ e, s'.st.entryFor res.handle res.epoch = some e ∧ e.connected = true

/-- A completed dial reads back the identity it was called with. -/
theorem connectionPeer_connected {s : Sys} (hi : s.ledger.Inv) {tid : TaskId} {task : ConnectTask}
    {handle : ConnectionHandle} {epoch : ℕ} (hl : s.connects.lookup tid = some task)
    (hp : task.phase = .parked handle epoch)
    (hc : s.st.connectCheck handle epoch = some (.ok ())) :
    s.st.connectionPeer handle epoch = task.addr.endpointId := by
  obtain ⟨e, he, -, hconn⟩ := State.connectCheck_ok hc
  have hcur := (State.entryFor_eq_some (h := s.holders)).1 he
  have horigin := hi.guarded (handle, epoch) task.peer
    (mem_guardsOf.2 ⟨tid, task, hl, hp, rfl⟩) e hcur
  have hsound := hi.sound handle e hcur.1
  obtain ⟨session, k, -, -, hk, hexp⟩ := hsound.authenticated hconn
  have hkey : k = task.peer := by
    refine hexp task.peer ?_
    rw [hsound.claim, horigin]
    rfl
  rw [State.connectionPeer, he]
  dsimp only
  rw [hk, hkey]
  exact EndpointId.toList_of_ofBytes task.valid

/-- A call ends with a connection by its own step, once its handshake is complete. -/
theorem Step.completes {s s' : Sys} (hst : Step s s') {tid : TaskId} {task task' : ConnectTask}
    {rid : ResId} (hl : s.connects.lookup tid = some task)
    (hrun : ∀ result, task.phase ≠ .done result) (hl' : s'.connects.lookup tid = some task')
    (hd : task'.phase = .done (.ok rid)) :
    ∃ handle epoch, task.phase = .parked handle epoch ∧
      s.st.connectCheck handle epoch = some (.ok ()) ∧ task'.addr = task.addr ∧
      s'.connections.lookup rid = some ⟨handle, epoch⟩ ∧ s'.st = s.st := by
  have hnone : ¬NoneDone s.connects s'.connects := fun h => by
    have hsame := h tid task' rid hl' hd
    cases Option.some.inj (hl.symm.trans hsame)
    exact hrun _ hd
  have hconnect : ConnectStep s s' := by
    rcases hst.calls with h | h
    · exact h
    · exact absurd (fun _ _ _ hl _ => h ▸ hl) hnone
  rcases hconnect.handles with ⟨-, h⟩ | ⟨tid', task₀, handle, epoch, rid', hl₀, hp, hc, -, rfl⟩
  · exact absurd h hnone
  · rw [Sys.pause, Table.lookup_insert_eq] at hl'
    split at hl' <;> rename_i htid
    · cases hl'
      cases hd
      cases htid
      cases Option.some.inj (hl.symm.trans hl₀)
      exact ⟨handle, epoch, hp, hc, rfl, AList.lookup_insert _, rfl⟩
    · cases Option.some.inj (hl.symm.trans hl')
      exact absurd hd (hrun _)

/-- A connection is current when it is handed out. -/
theorem Step.hands {s s' : Sys} (hst : Step s s') {rid : ResId} {res : ConnectionRes}
    (hn : s.connections.lookup rid = none) (hr : s'.connections.lookup rid = some res) :
    ∃ e, s'.st.entryFor res.handle res.epoch = some e := by
  cases hst with
  | pump h => cases hn.symm.trans (h.handles.2 ▸ hr)
  | session h => cases hn.symm.trans (h.handles.2 ▸ hr)
  | connect h =>
    rcases h.handles with ⟨h, -⟩ | ⟨tid, task, handle, epoch, rid', hl, hp, hc, -, rfl⟩
    · cases hn.symm.trans (h ▸ hr)
    · rw [Sys.pause, Table.lookup_insert_eq] at hr
      split at hr
      · cases hr
        obtain ⟨e, he, -⟩ := State.connectCheck_ok hc
        exact ⟨e, he⟩
      · cases hn.symm.trans hr
  | @accept _ st handle epoch _ _ hc =>
    rw [Table.lookup_insert_eq] at hr
    split at hr
    · cases hr
      exact State.acceptCheck_current hc
    · cases hn.symm.trans hr
  | dropConnection =>
    rw [Table.lookup_erase_eq, hn, ite_self] at hr
    cases hr
  | _ => cases hn.symm.trans hr

/-- In every reachable state, peer authentication is not bypassed. -/
theorem authenticated_reachable {s : Sys} (hs : endpoint.Reachable s) : Authenticated s := by
  have hi := ledger_inv hs
  refine ⟨fun handle e hl => (hi.sound handle e hl).authenticated,
    fun handle e hl => (hi.sound handle e hl).claim, fun handle e hl hn => ?_,
    fun tid task handle epoch e hl hp he => ⟨?_, EndpointId.toList_of_ofBytes task.valid⟩,
    fun handle e id peer hl ho => ?_, fun handle e session p hl hsession hp hne => ?_,
    fun s' hst tid task task' rid hl hrun hl' hd => ?_, fun s' hst rid res hn hr => ?_⟩
  · have hclaim := (hi.sound handle e hl).claim
    rw [hn] at hclaim
    cases ho : e.conn.origin with
    | udp => rfl
    | _ =>
      rw [ho] at hclaim
      cases hclaim
  · exact hi.guarded (handle, epoch) task.peer (mem_guardsOf.2 ⟨tid, task, hl, hp, rfl⟩) e
      (State.entryFor_eq_some.1 he)
  · obtain ⟨reg, hreg, heq⟩ := List.mem_map.1 (hi.signaled handle e hl id peer ho)
    cases heq
    exact ⟨reg, hreg, rfl, rfl⟩
  · have hnot : e.connected = false := by
      rw [← Bool.not_eq_true]
      intro hconn
      obtain ⟨session', k, hsession', hk, -, hexp⟩ := (hi.sound handle e hl).authenticated hconn
      cases Option.some.inj (hsession.symm.trans hsession')
      exact hne (hexp p hp ▸ hk)
    refine ⟨hnot, fun hq => ?_⟩
    exact Bool.false_ne_true (hnot.symm.trans (hi.queued (handle, e.epoch) hq e ⟨hl, rfl⟩))
  · obtain ⟨handle, epoch, hp, hc, haddr, hr, hst'⟩ := hst.completes hl hrun hl' hd
    refine ⟨haddr, ⟨handle, epoch⟩, hr, ?_⟩
    rw [hst']
    exact connectionPeer_connected hi hl hp hc
  · -- What is handed out is current, and what the application holds is connected.
    obtain ⟨e, he⟩ := hst.hands hn hr
    have hi' := ledger_inv (hs.step hst)
    exact ⟨e, he, hi'.handed res.stamp (mem_resourcesOf.2 ⟨rid, res, hr, rfl⟩) e
      (State.entryFor_eq_some.1 he)⟩

/-- The first connection of an endpoint is connected, with an authenticated key. -/
theorem authenticated_accepted :
    (ConnEntry.first (Vector.replicate 32 7)).connected = true ∧
      (Sys.accepted (Vector.replicate 32 7)).st.conns.lookup 0 =
        some (.first (Vector.replicate 32 7)) ∧
      Authenticated (Sys.accepted (Vector.replicate 32 7)) :=
  ⟨rfl, rfl, authenticated_reachable accepted_reachable⟩

/-! ## Stamps -/

/-- A dial guard, an element of the queue, a connection, a stream or a watch of
    the path was minted for a stamp. -/
inductive Sys.Holds (s : Sys) (handle : ConnectionHandle) (epoch : ℕ) : Prop
  | guard {tid : TaskId} {task : ConnectTask} :
      s.connects.lookup tid = some task → task.phase = .parked handle epoch → Holds s handle epoch
  | queue : (handle, epoch) ∈ s.st.acceptQueue → Holds s handle epoch
  | connection {rid : ResId} :
      s.connections.lookup rid = some ⟨handle, epoch⟩ → Holds s handle epoch
  | stream {id : StreamId} : ⟨handle, epoch, id⟩ ∈ s.streams → Holds s handle epoch
  | watch : ⟨handle, epoch⟩ ∈ s.watches → Holds s handle epoch

/-- A dial guard, an element of the queue, a connection or a stream was minted for a
    stamp: anything but a watch. -/
inductive Sys.Uses (s : Sys) (handle : ConnectionHandle) (epoch : ℕ) : Prop
  | guard {tid : TaskId} {task : ConnectTask} :
      s.connects.lookup tid = some task → task.phase = .parked handle epoch → Uses s handle epoch
  | queue : (handle, epoch) ∈ s.st.acceptQueue → Uses s handle epoch
  | connection {rid : ResId} :
      s.connections.lookup rid = some ⟨handle, epoch⟩ → Uses s handle epoch
  | stream {id : StreamId} : ⟨handle, epoch, id⟩ ∈ s.streams → Uses s handle epoch

section Stamps

variable {s s' : Sys} {handle : ConnectionHandle} {epoch : ℕ}

/-- What was minted for a stamp uses it in the ledger. -/
theorem Sys.Uses.used (h : s.Uses handle epoch) : s.ledger.Used (handle, epoch) := by
  cases h with
  | guard hl hp => exact .guard (mem_guardsOf.2 ⟨_, _, hl, hp, rfl⟩)
  | queue h => exact .queue h
  | connection hl => exact .resource (mem_resourcesOf.2 ⟨_, _, hl, rfl⟩)
  | stream h => exact .stream (List.mem_map.2 ⟨_, h, rfl⟩)

/-- What was minted for a stamp holds it in the ledger. -/
theorem Sys.Holds.held (h : s.Holds handle epoch) : s.ledger.Held (handle, epoch) := by
  cases h with
  | guard hl hp => exact (Uses.guard hl hp).used.held
  | queue h => exact (Uses.queue h).used.held
  | connection hl => exact (Uses.connection hl).used.held
  | stream h => exact (Uses.stream h).used.held
  | watch h => exact .inr (List.mem_map.2 ⟨_, h, rfl⟩)

/-- What is found along a run under a stamp that was used has evolved from what
    was found before. -/
theorem entryFor_evolves (hs : endpoint.Reachable s) (h : endpoint.Leads s s')
    (hlt : epoch < s.st.nextConnEpoch) {e' : ConnEntry}
    (he' : s'.st.entryFor handle epoch = some e') :
    ∃ e, s.st.entryFor handle epoch = some e ∧ e.Evolves e' := by
  have hcur := (State.entryFor_eq_some (h := s'.holders)).1 he'
  obtain ⟨e, hl, he⟩ := (ledger_advances hs h).entry handle e' hcur.1 (hcur.2.symm ▸ hlt)
  exact ⟨e, (State.entryFor_eq_some (h := s.holders)).2 ⟨hl, he.epoch.symm.trans hcur.2⟩, he⟩

/-- A connection that is gone does not come back. -/
theorem entryFor_gone (hs : endpoint.Reachable s) (h : endpoint.Leads s s')
    (hlt : epoch < s.st.nextConnEpoch) (hn : s.st.entryFor handle epoch = none) :
    s'.st.entryFor handle epoch = none := by
  rw [Option.eq_none_iff_forall_ne_some]
  intro e' he'
  obtain ⟨e, he, -⟩ := entryFor_evolves hs h hlt he'
  cases hn.symm.trans he

/-- A connection that has failed stays so, while it is found. -/
theorem entryFor_failed (hs : endpoint.Reachable s) (h : endpoint.Leads s s')
    (hlt : epoch < s.st.nextConnEpoch)
    (hf : ∀ e, s.st.entryFor handle epoch = some e → e.error ≠ none) {e' : ConnEntry}
    (he' : s'.st.entryFor handle epoch = some e') : e'.error ≠ none := by
  obtain ⟨e, he, hev⟩ := entryFor_evolves hs h hlt he'
  exact fun hnone => hf e he (hev.error hnone)

/-- A closed connection stays closed. -/
theorem connectionState_closed (hs : endpoint.Reachable s) (h : endpoint.Leads s s')
    (hlt : epoch < s.st.nextConnEpoch) (hc : s.st.connectionState handle epoch = .closed) :
    s'.st.connectionState handle epoch = .closed := by
  rw [State.connectionState] at hc ⊢
  split
  · rfl
  · rename_i e' he'
    obtain ⟨e, he, hev⟩ := entryFor_evolves hs h hlt he'
    rw [he] at hc
    dsimp only at hc
    split at hc <;> rename_i hdead
    · -- A closed entry does not come back to life.
      rw [if_pos]
      rw [Bool.or_eq_true, Option.isSome_iff_ne_none] at hdead ⊢
      refine hdead.imp (fun hd => ?_) fun herr hnone => herr (hev.error hnone)
      rw [← Bool.not_eq_false]
      exact fun hd' => Bool.false_ne_true ((hev.drained hd').symm.trans hd)
    · split at hc <;> cases hc

/-- A connection that the application holds is open or closed. -/
theorem connectionState_held (hs : endpoint.Reachable s) {rid : ResId} {res : ConnectionRes}
    (hr : s.connections.lookup rid = some res) :
    s.st.connectionState res.handle res.epoch = .open ∨
      s.st.connectionState res.handle res.epoch = .closed := by
  rw [State.connectionState]
  split
  · exact .inr rfl
  · rename_i e he
    have hconn := (ledger_inv hs).handed res.stamp (mem_resourcesOf.2 ⟨rid, res, hr, rfl⟩) e
      (State.entryFor_eq_some.1 he)
    rw [hconn]
    split
    · exact .inr rfl
    · exact .inl rfl

/-- The states that a connection goes through, while the application holds it. -/
theorem connectionState_run (hs : endpoint.Reachable s) {rid : ResId} {res : ConnectionRes}
    {run : List Sys} (hrun : (s :: run).IsChain endpoint.Leads)
    (hr : ∀ x ∈ s :: run, x.connections.lookup rid = some res) :
    ∃ m n, (s :: run).map (fun x => x.st.connectionState res.handle res.epoch) =
      List.replicate m .open ++ List.replicate n .closed := by
  have hheld := hr s List.mem_cons_self
  have hlt : res.epoch < s.st.nextConnEpoch :=
    (ledger_inv hs).held_lt (Sys.Holds.held (.connection hheld))
  -- By induction on the run: what precedes an open state is open.
  induction run generalizing s with
  | nil =>
    rcases connectionState_held hs hheld with h | h
    · exact ⟨1, 0, by rw [List.map_singleton, h]; rfl⟩
    · exact ⟨0, 1, by rw [List.map_singleton, h]; rfl⟩
  | cons x run ih =>
    rw [List.isChain_cons_cons] at hrun
    have hx := hs.leads hrun.1
    have hheldx := hr x (List.mem_cons_of_mem _ List.mem_cons_self)
    have hltx : res.epoch < x.st.nextConnEpoch :=
      (ledger_inv hx).held_lt (Sys.Holds.held (.connection hheldx))
    obtain ⟨m, n, hmap⟩ := ih hx hrun.2 (fun y hy => hr y (List.mem_cons_of_mem _ hy)) hheldx hltx
    rcases connectionState_held hs hheld with h | h
    · exact ⟨m + 1, n, by rw [List.map_cons, hmap, h, List.replicate_succ]; rfl⟩
    · have hclosed := connectionState_closed hs hrun.1 hlt h
      cases m with
      | zero =>
        exact ⟨0, n + 1, by rw [List.map_cons, hmap, h, List.replicate_succ (n := n)]; rfl⟩
      | succ m =>
        rw [List.map_cons, hclosed, List.replicate_succ, List.cons_append] at hmap
        cases (List.cons.inj hmap).1

end Stamps

/-- What was minted for a connection never acts on another one. -/
structure Stamped (s : Sys) : Prop where
  /-- No two connections were inserted under one stamp. -/
  unique : (s.st.insertions.map Insertion.epoch).Nodup
  distinct : (s.st.insertions.map Insertion.id).Nodup
  /-- What was minted for a connection reaches, along every run, that connection
      or nothing. -/
  reaches : ∀ handle epoch, s.Holds handle epoch →
    ∃ id, ⟨handle, epoch, id⟩ ∈ s.st.insertions ∧
      ∀ s', endpoint.Leads s s' → ∀ e, s'.st.entryFor handle epoch = some e → e.conn.id = id
  /-- Once it reaches nothing, it never reaches anything again. -/
  gone : ∀ handle epoch, s.Holds handle epoch → s.st.entryFor handle epoch = none →
    ∀ s', endpoint.Leads s s' → s'.st.entryFor handle epoch = none
  /-- A connection of the application is open, and then closed for good. -/
  states : ∀ rid res run, (s :: run).IsChain endpoint.Leads →
    (∀ x ∈ s :: run, x.connections.lookup rid = some res) →
    ∃ m n, (s :: run).map (fun x => x.st.connectionState res.handle res.epoch) =
      List.replicate m .open ++ List.replicate n .closed

/-- In every reachable state, what was minted for a connection never acts on
    another one. -/
theorem stamped_reachable {s : Sys} (hs : endpoint.Reachable s) : Stamped s := by
  have hi := ledger_inv hs
  refine ⟨?_, ?_, fun handle epoch hh => ?_, fun handle epoch hh hn s' hl => ?_,
    fun rid res run hrun hr => connectionState_run hs hrun hr⟩
  · exact Eq.symm hi.epochs ▸ List.nodup_range
  · exact Eq.symm hi.ids ▸ List.nodup_range
  · obtain ⟨id, hid⟩ := hi.minted (handle, epoch) hh.held
    refine ⟨id, hid, fun s' hl e he => ?_⟩
    obtain ⟨e₀, he₀, hev⟩ := entryFor_evolves hs hl (hi.held_lt hh.held) he
    have hcur := (State.entryFor_eq_some (h := s.holders)).1 he₀
    have heq := hi.insertion_unique (hi.logged handle e₀ hcur.1) hid hcur.2
    rw [hev.id]
    exact congrArg Insertion.id heq
  · exact entryFor_gone hs hl (hi.held_lt hh.held) hn

/-- The application holds the first connection of an endpoint by its stamp. -/
theorem stamped_accepted :
    (Sys.accepted (Vector.replicate 32 7)).Holds 0 0 ∧
      Stamped (Sys.accepted (Vector.replicate 32 7)) :=
  ⟨@Sys.Holds.connection _ 0 0 0 rfl, stamped_reachable accepted_reachable⟩

/-! ## Owners -/

/-- The call waits for the handshake of a connection, under an armed guard. -/
def ConnectTask.guards (task : ConnectTask) (handle : ConnectionHandle) (epoch : ℕ) : Bool :=
  match task.phase with
  | .parked handle' epoch' => decide ((handle, epoch) = (handle', epoch'))
  | _ => false

/-- The owners of the entry `e` under `handle`: the armed dial guards, the
    handshake of an accepted connection, the elements of the queue, and the
    connections that the application has not dropped. -/
def Sys.owners (s : Sys) (handle : ConnectionHandle) (e : ConnEntry) : ℕ :=
  s.connects.values.countP (fun task => task.guards handle e.epoch) +
    (if e.acceptedSide && !e.connected then 1 else 0) +
    s.st.acceptQueue.count (handle, e.epoch) +
    s.connections.values.countP (fun res => decide ((handle, e.epoch) = res.stamp))

/-- The guards of a stamp are counted call by call. -/
theorem count_guardsOf (connects : Table TaskId ConnectTask) (handle : ConnectionHandle)
    (epoch : ℕ) : ((guardsOf connects).map Prod.fst).count (handle, epoch) =
      connects.values.countP fun task => task.guards handle epoch := by
  rw [guardsOf]
  induction connects.values with
  | nil => rfl
  | cons task tasks ih =>
    rw [← Multiset.cons_coe, Multiset.cons_bind, Multiset.map_add, Multiset.count_add, ih,
      List.countP_cons, Nat.add_comm]
    congr 1
    rw [ConnectTask.guard, ConnectTask.guards]
    cases task.phase with
    | parked handle' epoch' =>
      rw [Multiset.map_singleton, Multiset.count_singleton]
      simp only [decide_eq_true_eq]
    | _ => rfl

/-- The connections of a stamp are counted one by one. -/
theorem count_resourcesOf (connections : Table ResId ConnectionRes) (handle : ConnectionHandle)
    (epoch : ℕ) : (resourcesOf connections).count (handle, epoch) =
      connections.values.countP fun res => decide ((handle, epoch) = res.stamp) := by
  rw [resourcesOf]
  induction connections.values with
  | nil => rfl
  | cons res rest ih =>
    rw [← Multiset.cons_coe, Multiset.map_cons, Multiset.count_cons, ih, List.countP_cons]
    simp only [decide_eq_true_eq]

/-- In every reachable state, a live connection has exactly one owner. -/
theorem owned_reachable {s : Sys} (hs : endpoint.Reachable s) {handle : ConnectionHandle}
    {e : ConnEntry} (hl : s.st.conns.lookup handle = some e) (hlive : e.Live) :
    s.owners handle e = 1 := by
  have howned := (ledger_inv hs).owned handle e hl hlive
  rw [Sys.owners, ← count_guardsOf, ← count_resourcesOf]
  exact howned

/-- The application owns the first connection of an endpoint. -/
theorem owned_accepted :
    (ConnEntry.first (Vector.replicate 32 7)).Live ∧
      (Sys.accepted (Vector.replicate 32 7)).owners 0 (.first (Vector.replicate 32 7)) = 1 :=
  ⟨⟨rfl, rfl, rfl⟩, owned_reachable accepted_reachable rfl ⟨rfl, rfl, rfl⟩⟩

end IrohEndpoint
