import IrohEndpoint.Ownership
import IrohEndpoint.Wires

/-!
# The path changes of a connection

The first call of `path_changes` on a connection's resource starts a task, which writes the
connection's path to the stream that was returned whenever it is another one than it wrote
last. While the reader does not read, the task is blocked. A later call returns a stream that
nobody writes.

The stream is a coalescing watch (`Coalesces`): neighbours are distinct, and every element was
the kind of wire that `drain` would have queued the connection's datagrams for when it was
produced (`State.Uses`); none is produced once the connection has closed. This holds in every
run, however the routes move and the reader stalls (`coalesces_reachable`), if noq knows the
connection's path until the connection is drained.
-/

namespace IrohEndpoint

open Transition

/-! ## The system -/

/-- An element that was produced: the stream it was written to, and the endpoint's state at
    that moment. -/
structure PathElement where
  stream : ℕ
  kind : PathKind
  moment : State

/-- A task behind `path_changes`: what it wrote last, and whether its reader has yet to
    read it. -/
structure Watcher where
  last : Option PathKind
  writing : Bool

/-- A connection's resource with the endpoint around it. -/
structure WatchSys where
  sys : Sys
  /-- `path_changes` was called. -/
  watching : Bool
  /-- How many streams its calls have returned: they are numbered. -/
  streams : ℕ
  /-- The tasks, by the stream they write. -/
  watchers : Table ℕ Watcher
  /-- What was produced, and what was read, in order. -/
  produced : List PathElement
  yielded : List (ℕ × PathKind)

/-- A step of the tasks and readers of the resource `rid`, or of the rest of the endpoint. -/
inductive WatchStep (rid : ResId) (res : ConnectionRes) : WatchSys → WatchSys → Prop
  | around {s : WatchSys} {sys : Sys} :
      Step s.sys sys → WatchStep rid res s { s with sys := sys }
  /-- The stream was taken already: the writer drops. -/
  | taken {s : WatchSys} :
      s.sys.quiet = true → s.sys.connections.lookup rid = some res → s.watching = true →
      WatchStep rid res s { s with streams := s.streams + 1 }
  | started {s : WatchSys} :
      s.sys.quiet = true → s.sys.connections.lookup rid = some res → s.watching = false →
      WatchStep rid res s { s with
        sys := { s.sys with watches := s.sys.watches ++ [res] }
        watching := true
        streams := s.streams + 1
        watchers := s.watchers.insert s.streams ⟨none, false⟩ }
  | parked {s : WatchSys} {id : ℕ} {tid : TaskId} {last : Option PathKind} :
      s.sys.quiet = true → s.watchers.lookup id = some ⟨last, false⟩ →
      s.sys.st.pathChangesCheck res.handle res.epoch true last = none →
      WatchStep rid res s { s with
        sys := { s.sys with st := { s.sys.st with waiters := tid :: s.sys.st.waiters } } }
  | produced {s : WatchSys} {id : ℕ} {last : Option PathKind} {kind : PathKind} :
      s.sys.quiet = true → s.watchers.lookup id = some ⟨last, false⟩ →
      s.sys.st.pathChangesCheck res.handle res.epoch true last = some (some kind) →
      WatchStep rid res s { s with
        watchers := s.watchers.insert id ⟨some kind, true⟩
        produced := s.produced ++ [⟨id, kind, s.sys.st⟩] }
  /-- The end of the stream. -/
  | ended {s : WatchSys} {id : ℕ} {last : Option PathKind} :
      s.sys.quiet = true → s.watchers.lookup id = some ⟨last, false⟩ →
      s.sys.st.pathChangesCheck res.handle res.epoch true last = some none →
      WatchStep rid res s { s with watchers := s.watchers.erase id }
  | read {s : WatchSys} {id : ℕ} {kind : PathKind} :
      s.sys.quiet = true → s.watchers.lookup id = some ⟨some kind, true⟩ →
      WatchStep rid res s { s with
        watchers := s.watchers.insert id ⟨some kind, false⟩
        yielded := s.yielded ++ [(id, kind)] }
  /-- The reader has dropped the stream. -/
  | dropped {s : WatchSys} {id : ℕ} {last : Option PathKind} :
      s.sys.quiet = true → s.watchers.lookup id = some ⟨last, true⟩ →
      WatchStep rid res s { s with watchers := s.watchers.erase id }

/-- A connection's resource from when it is handed out. -/
def watching (rid : ResId) (res : ConnectionRes) : System WatchSys where
  init := {s | ∃ sys, endpoint.Reachable sys ∧ sys.connections.lookup rid = some res ∧
    s = ⟨sys, false, 0, ∅, [], []⟩}
  step := WatchStep rid res

/-! ## What is promised -/

/-- The datagrams to `addr` go over a wire of the kind: its route names one, and `drain`
    queues for one what is transmitted to it. -/
structure State.Uses (s : State) (addr : SocketAddr) (kind : PathKind) : Prop where
  routed : kind = .ofWire (s.routes.lookup addr)
  drained : ∀ polling st progressed, s.drain polling = .ok (st, progressed) →
    ∃ queued, s.Queues st queued ∧
      List.Forall₂ (fun t d => t.1 = addr → .ofWire d.wire = kind) (s.polledTransmits polling) queued

/-- The streams of `path_changes` are one coalescing watch. -/
structure Coalesces (rid : ResId) (res : ConnectionRes) (s : WatchSys) : Prop where
  /-- Nothing but the first stream yields anything, -/
  first : ∀ y ∈ s.yielded, y.1 = 0
  /-- and it yields what was produced, in order. -/
  order : s.yielded <+: s.produced.map fun e => (e.stream, e.kind)
  distinct : (s.yielded.map Prod.snd).IsChain (· ≠ ·)
  /-- An element is the connection's kind of wire when it is produced, while the connection
      lives, -/
  wire : ∀ e ∈ s.produced, ∃ entry, e.moment.entryFor res.handle res.epoch = some entry ∧
    entry.drained = false ∧ entry.error = none ∧ e.moment.Uses entry.conn.remote e.kind
  /-- and none is produced afterwards. -/
  ended : s.sys.st.connectionState res.handle res.epoch = .closed →
    ∀ s', (watching rid res).Leads s s' → s'.produced = s.produced

/-! ## The watch -/

/-- A connection uses the wire that it reports. -/
theorem State.uses_currentPath {s : State} {handle : ConnectionHandle} {epoch : ℕ}
    {entry : ConnEntry} (h : s.entryFor handle epoch = some entry) :
    s.Uses entry.conn.remote (s.currentPath handle epoch true) := by
  refine ⟨currentPath_eq h, fun polling st progressed hd => ?_⟩
  obtain ⟨-, queued, hq, hpicks⟩ := drain_carries hd
  refine ⟨queued, hq, hpicks.imp fun t d hpick haddr => ?_⟩
  rw [currentPath_eq h, picks_wire hpick, haddr]

/-- An element is produced while the connection lives, of another kind than the last. -/
theorem State.pathChangesCheck_some {s : State} {handle : ConnectionHandle} {epoch : ℕ}
    {last : Option PathKind} {kind : PathKind}
    (h : s.pathChangesCheck handle epoch true last = some (some kind)) :
    last ≠ some kind ∧ kind = s.currentPath handle epoch true ∧
      ∃ entry, s.entryFor handle epoch = some entry ∧ entry.drained = false ∧ entry.error = none := by
  rw [pathChangesCheck] at h
  split at h
  · cases h
  · rename_i entry he
    split at h
    · cases h
    · rename_i halive
      split at h
      · cases h
      · rename_i hne
        cases h
        rw [Bool.or_eq_true, not_or, Bool.not_eq_true, Option.not_isSome_iff_eq_none] at halive
        exact ⟨hne, rfl, entry, he, halive.1, halive.2⟩

/-- Nothing is produced for a connection that has closed. -/
theorem State.pathChangesCheck_closed {s : State} {handle : ConnectionHandle} {epoch : ℕ}
    (hc : s.connectionState handle epoch = .closed) {last : Option PathKind} {kind : PathKind} :
    s.pathChangesCheck handle epoch true last ≠ some (some kind) := by
  intro h
  obtain ⟨-, -, entry, he, hdrained, herror⟩ := pathChangesCheck_some h
  rw [connectionState, he] at hc
  cases hconn : entry.connected <;> simp [hdrained, herror, hconn] at hc

variable {rid : ResId} {res : ConnectionRes} {s s' : WatchSys}

/-- A step of the watch is a run of the endpoint. -/
theorem WatchStep.sys (h : WatchStep rid res s s') : endpoint.Leads s.sys s'.sys := by
  cases h with
  | around h => exact .single h
  | started hq hr => exact .single (.pathChanges hq hr)
  | parked hq => exact .single (.repark hq)
  | _ => exact .refl

namespace WatchSys

/-- The stream and the kind of what was produced. -/
def writes (s : WatchSys) : List (ℕ × PathKind) := s.produced.map fun e => (e.stream, e.kind)

/-- A task writes the first stream: it has produced all there is, and what was not yet read
    is what it is writing. -/
structure Tends (s : WatchSys) (id : ℕ) (w : Watcher) : Prop where
  first : id = 0
  last : w.last = (s.produced.getLast?).map PathElement.kind
  writes : s.writes = s.yielded ++ if w.writing then (w.last.map fun kind => (0, kind)).toList else []

/-- The invariant of the watch. -/
structure Inv (res : ConnectionRes) (s : WatchSys) : Prop where
  sys : endpoint.Reachable s.sys
  epoch : res.epoch < s.sys.st.nextConnEpoch
  fresh : s.watching = false → s.streams = 0 ∧ (∀ id, s.watchers.lookup id = none) ∧
    s.produced = [] ∧ s.yielded = []
  tends : ∀ id w, s.watchers.lookup id = some w → s.Tends id w
  first : ∀ e ∈ s.produced, e.stream = 0
  order : s.yielded <+: s.writes
  distinct : (s.produced.map PathElement.kind).IsChain (· ≠ ·)
  wire : ∀ e ∈ s.produced, ∃ entry, e.moment.entryFor res.handle res.epoch = some entry ∧
    entry.drained = false ∧ entry.error = none ∧ e.moment.Uses entry.conn.remote e.kind

/-- What produces, reads and starts nothing keeps the invariant. -/
theorem Inv.keep (hi : Inv res s) (h : WatchStep rid res s s')
    (hwatching : s'.watching = s.watching) (hstreams : s.watching = false → s'.streams = s.streams)
    (hwatchers : ∀ id w, s'.watchers.lookup id = some w → s.watchers.lookup id = some w)
    (hproduced : s'.produced = s.produced) (hyielded : s'.yielded = s.yielded) : Inv res s' where
  sys := hi.sys.leads h.sys
  epoch := lt_of_lt_of_le hi.epoch (ledger_advances hi.sys h.sys).epoch
  fresh := by
    rw [hwatching, hproduced, hyielded]
    intro hfresh
    obtain ⟨hstreams', hwatchers', hrest⟩ := hi.fresh hfresh
    refine ⟨(hstreams hfresh).trans hstreams', fun id => ?_, hrest⟩
    rw [Option.eq_none_iff_forall_ne_some]
    intro w hl
    cases (hwatchers' id).symm.trans (hwatchers id w hl)
  tends := by
    intro id w hl
    obtain ⟨hfirst, hlast, hwrites⟩ := hi.tends id w (hwatchers id w hl)
    refine ⟨hfirst, by rw [hlast, hproduced], ?_⟩
    rw [writes, hproduced, hyielded]
    exact hwrites
  first := hproduced ▸ hi.first
  order := by
    rw [writes, hproduced, hyielded]
    exact hi.order
  distinct := hproduced ▸ hi.distinct
  wire := hproduced ▸ hi.wire

/-- A step keeps the invariant. -/
theorem Inv.step (hi : Inv res s) (h : WatchStep rid res s s') : Inv res s' := by
  have hs' := hi.sys.leads h.sys
  have hepoch := lt_of_lt_of_le hi.epoch (ledger_advances hi.sys h.sys).epoch
  have herase : ∀ {id id' : ℕ} {w : Watcher}, (s.watchers.erase id).lookup id' = some w →
      s.watchers.lookup id' = some w := fun hl => (Table.lookup_erase_some.1 hl).2
  cases h' : h with
  | around | parked => exact hi.keep h rfl (fun _ => rfl) (fun _ _ hl => hl) rfl rfl
  | ended | dropped => exact hi.keep h rfl (fun _ => rfl) (fun _ _ hl => herase hl) rfl rfl
  | taken _ _ hw =>
    refine hi.keep h rfl (fun hfresh => ?_) (fun _ _ hl => hl) rfl rfl
    cases hfresh.symm.trans hw
  | started _ _ hw =>
    -- It is the first call: nothing was produced.
    obtain ⟨hstreams, hwatchers, hproduced, hyielded⟩ := hi.fresh hw
    refine ⟨hs', hepoch, nofun, fun id w hl => ?_, hi.first, hi.order, hi.distinct, hi.wire⟩
    rcases Table.lookup_insert_some.1 hl with ⟨rfl, rfl⟩ | ⟨-, hl⟩
    · exact ⟨hstreams, by simp [hproduced], by simp [writes, hproduced, hyielded]⟩
    · cases (hwatchers id).symm.trans hl
  | @produced id last kind _ hl hcheck =>
    obtain ⟨rfl, hlast, hwrites⟩ := hi.tends id _ hl
    obtain ⟨hne, rfl, entry, he, hdrained, herror⟩ := State.pathChangesCheck_some hcheck
    refine ⟨hs', hepoch, fun hfresh => ?_, fun id w hl' => ?_, fun e he' => ?_,
      hi.order.trans ?_, ?_, fun e he' => ?_⟩
    · cases ((hi.fresh hfresh).2.1 0).symm.trans hl
    · rcases Table.lookup_insert_some.1 hl' with ⟨rfl, rfl⟩ | ⟨hid, hl'⟩
      · rw [if_neg Bool.false_ne_true, List.append_nil] at hwrites
        exact ⟨rfl, by simp, by simpa [writes] using hwrites⟩
      · exact absurd (hi.tends id w hl').first hid
    · rcases List.mem_append.1 he' with he' | he'
      · exact hi.first e he'
      · rw [List.mem_singleton.1 he']
    · simp [writes]
    · -- The task has not written the same kind last.
      rw [List.map_append, List.isChain_append]
      refine ⟨hi.distinct, .singleton _, fun x hx y hy hxy => hne ?_⟩
      rw [List.getLast?_map, ← hlast] at hx
      have hsome : last = some x := hx
      rw [hsome, hxy]
      exact (Option.mem_def.1 hy).symm
    · rcases List.mem_append.1 he' with he' | he'
      · exact hi.wire e he'
      · rw [List.mem_singleton.1 he']
        exact ⟨entry, he, hdrained, herror, State.uses_currentPath he⟩
  | @read id kind _ hl =>
    obtain ⟨rfl, hlast, hwrites⟩ := hi.tends id _ hl
    refine ⟨hs', hepoch, fun hfresh => ?_, fun id w hl' => ?_, hi.first, ?_, hi.distinct, hi.wire⟩
    · cases ((hi.fresh hfresh).2.1 0).symm.trans hl
    · rcases Table.lookup_insert_some.1 hl' with ⟨rfl, rfl⟩ | ⟨hid, hl'⟩
      · exact ⟨rfl, hlast, by simpa [writes] using hwrites⟩
      · exact absurd (hi.tends id w hl').first hid
    · exact ⟨[], (List.append_nil _).trans hwrites.symm⟩

end WatchSys

/-- Every state of the watch meets the invariant. -/
theorem watching_inv (hs : (watching rid res).Reachable s) : s.Inv res := by
  refine hs.invariant (P := WatchSys.Inv res) ?_ fun s s' _ hst hi => hi.step hst
  rintro _ ⟨sys, hr, hheld, rfl⟩
  exact ⟨hr, (ledger_inv hr).held_lt (Sys.Holds.held (.connection hheld)),
    fun _ => ⟨rfl, fun _ => rfl, rfl, rfl⟩, nofun, nofun, List.prefix_rfl, .nil, nofun⟩

/-- Nothing is produced after the connection has closed. -/
theorem watching_over (hi : s.Inv res) (hc : s.sys.st.connectionState res.handle res.epoch = .closed)
    (h : (watching rid res).Leads s s') : s'.produced = s.produced := by
  suffices hall : s'.Inv res ∧ s'.sys.st.connectionState res.handle res.epoch = .closed ∧
      s'.produced = s.produced from hall.2.2
  induction h with
  | refl => exact ⟨hi, hc, rfl⟩
  | tail _ hst ih =>
    obtain ⟨hi', hc', hproduced⟩ := ih
    refine ⟨hi'.step hst, connectionState_closed hi'.sys hst.sys hi'.epoch hc', ?_⟩
    cases hst with
    | produced _ _ hcheck => exact absurd hcheck (State.pathChangesCheck_closed hc')
    | _ => exact hproduced

/-- In every run, the streams of `path_changes` are one coalescing watch. -/
theorem coalesces_reachable (hs : (watching rid res).Reachable s) : Coalesces rid res s := by
  have hi := watching_inv hs
  refine ⟨fun y hy => ?_, hi.order, ?_, hi.wire, fun hc s' => watching_over hi hc⟩
  · obtain ⟨e, he, rfl⟩ := List.mem_map.1 (hi.order.subset hy)
    exact hi.first e he
  · obtain ⟨rest, hrest⟩ := hi.order
    have hkinds : s.yielded.map Prod.snd ++ rest.map Prod.snd =
        s.produced.map PathElement.kind := by
      rw [← List.map_append, hrest, WatchSys.writes, List.map_map]
      rfl
    have hdistinct := hi.distinct
    rw [← hkinds] at hdistinct
    exact hdistinct.left_of_append

/-- The path of a connection that was accepted over the home relay is written and read; its peer
    makes an offer, and the route moves to a channel: that is written and read too. A second call
    yields nothing. -/
theorem coalesces_accepted : ∃ s, (watching 0 ⟨0, 0⟩).Reachable s ∧ s.streams = 2 ∧
    s.yielded = [(0, .relay), (0, .webrtc)] ∧ Coalesces 0 ⟨0, 0⟩ s := by
  have hidle := idle_reachable (.relayOnly "https://home.example") true 0
  have hdatagram := hidle.step (.pump (@PumpStep.relayDatagram _ homeRelay ⟨0⟩
    (Vector.replicate 32 7) [] (.newConnection [] (.ok 0)) _ rfl rfl List.mem_cons_self rfl rfl))
  have hconnected := hdatagram.step (.pump (@PumpStep.drain _
    (fun _ => ⟨[⟨0, [.connected ⟨none, some (Vector.replicate 32 7)⟩], []⟩], false⟩) _ _ rfl rfl))
  have hrest := (select_reachable hconnected rfl rfl rfl rfl rfl rfl).step (.pump (.suspend rfl rfl))
  have haccepted := hrest.step (@Step.accept _ 0 _ 0 0 0 rfl rfl rfl)
  have hstart : (watching 0 ⟨0, 0⟩).Reachable _ := .init ⟨_, haccepted, rfl, rfl⟩
  have htaken := (hstart.step (.started rfl rfl rfl)).step (.taken rfl rfl rfl)
  have hrelay := (htaken.step (@WatchStep.produced _ _ _ 0 none .relay rfl rfl rfl)).step
    (@WatchStep.read _ _ _ 0 .relay rfl rfl)
  -- The answerer registers its channel.
  have hsignal := hrelay.step (.around (.pump (@PumpStep.relaySignal _ homeRelay ⟨0⟩
    (Vector.replicate 32 7) [signalPrefix] rfl rfl List.mem_cons_self rfl)))
  have hdrain := hsignal.step (.around (.pump (@PumpStep.drain _ (fun _ => ⟨[], false⟩) _ _ rfl
    rfl)))
  have hflush := ((hdrain.step (.around (.pump (.relayEmpty rfl rfl)))).step
    (.around (.pump (.udpEmpty rfl rfl)))).step (.around (.pump (.channelEmpty rfl rfl)))
  have hselect := (hflush.step (.around (.pump (.arm rfl)))).step
    (.around (.pump (.stay rfl rfl)))
  have hanswered := (hselect.step (.around (.pump (.suspend rfl rfl)))).step
    (.around (.session (@SessionStep.answered _ 0 _ _ _ rfl rfl rfl rfl rfl)))
  have hchannel := (hanswered.step
    (@WatchStep.produced _ _ _ 0 (some .relay) .webrtc rfl rfl rfl)).step
    (@WatchStep.read _ _ _ 0 .webrtc rfl rfl)
  exact ⟨_, hchannel, rfl, rfl, coalesces_reachable hchannel⟩

end IrohEndpoint
