import IrohEndpoint.Calls
import IrohEndpoint.Signaling

/-!
# One session per peer

A session is live from the moment it holds its peer's slot: an offerer once it has
taken it, an answerer from the signal that spawns it. It frees the slot when it ends,
with the signals that it did not read. `Slots` is the slots with the inboxes and the
sessions. Its invariant (`Slots.Inv`) completes that of `Signaling`: a slot that is taken
is held by a live session, and a peer has an inbox only while its slot is taken.

Sessions change by their own steps (`Step.sessions`): what the end of one may touch is
read off these.
-/

namespace IrohEndpoint

open Transition

/-! ## The machine -/

/-- The signaling slots, the inboxes and the sessions. -/
structure Slots where
  signaling : Table EndpointId RelayKey
  inboxes : Table EndpointId (List Bytes)
  sessions : Table TaskId SignalingSession
  nextSession : TaskId

/-- The slots of the endpoint. -/
def Sys.slots (s : Sys) : Slots where
  signaling := s.st.signaling
  inboxes := s.st.signalInboxes
  sessions := s.sessions
  nextSession := s.nextSession

namespace Slots

/-- The inboxes with one more signal of `peer`, unless its inbox is full. -/
def file (inboxes : Table EndpointId (List Bytes)) (peer : EndpointId) (payload : Bytes) :
    Table EndpointId (List Bytes) :=
  let inbox := (inboxes.lookup peer).getD []
  inboxes.insert peer (if inbox.length < inboxCap then inbox ++ [payload] else inbox)

/-- What may happen to the slots. -/
inductive Step : Slots → Slots → Prop
  /-- An offerer is spawned. -/
  | offer {c : Slots} {peer : EndpointId} {via : RelayKey} :
      Step c { c with
        sessions := c.sessions.insert c.nextSession ⟨peer, .offerer, via, false, []⟩
        nextSession := c.nextSession + 1 }
  /-- A signal is filed for its peer's session, -/
  | signal {c : Slots} {peer : EndpointId} {via : RelayKey} {payload : Bytes} :
      c.signaling.lookup peer = some via →
      Step c { c with inboxes := file c.inboxes peer payload }
  /-- or claims the slot for a new answerer. -/
  | answer {c : Slots} {peer : EndpointId} {via : RelayKey} {payload : Bytes} :
      c.signaling.lookup peer = none →
      Step c { c with
        signaling := c.signaling.insert peer via
        inboxes := file c.inboxes peer payload
        sessions := c.sessions.insert c.nextSession ⟨peer, .answerer, via, true, []⟩
        nextSession := c.nextSession + 1 }
  /-- An offerer that holds no slot ends. -/
  | busy {c : Slots} {tid : TaskId} {session : SignalingSession} :
      c.sessions.lookup tid = some session → session.live = false →
      Step c { c with sessions := c.sessions.erase tid }
  /-- An offerer takes its peer's slot. -/
  | begin {c : Slots} {tid : TaskId} {session : SignalingSession} :
      c.sessions.lookup tid = some session → c.signaling.lookup session.peer = none →
      Step c { c with
        signaling := c.signaling.insert session.peer session.via
        sessions := c.sessions.insert tid { session with live := true } }
  /-- A session publishes signals, -/
  | publish {c : Slots} {tid : TaskId} {session : SignalingSession} {published : List RelayKey} :
      c.sessions.lookup tid = some session →
      Step c { c with sessions := c.sessions.insert tid { session with published := published } }
  /-- and takes one from an inbox. -/
  | take {c : Slots} {peer : EndpointId} {payload : Bytes} {rest : List Bytes} :
      c.inboxes.lookup peer = some (payload :: rest) →
      Step c { c with inboxes := c.inboxes.insert peer rest }
  /-- A session frees its slot. -/
  | finish {c : Slots} {tid : TaskId} {session : SignalingSession} :
      c.sessions.lookup tid = some session → session.live = true →
      Step c { c with
        signaling := c.signaling.erase session.peer
        inboxes := c.inboxes.erase session.peer
        sessions := c.sessions.erase tid }

/-- The machine starts with no session. -/
def machine : System Slots where
  init := {⟨∅, ∅, ∅, 0⟩}
  step := Step

/-! ## Who holds a slot -/

/-- A live session with `peer` was started with the relay `via`. -/
def Holder (sessions : Table TaskId SignalingSession) (peer : EndpointId) (via : RelayKey) : Prop :=
  ∃ tid session, sessions.lookup tid = some session ∧ session.live = true ∧
    session.peer = peer ∧ session.via = via

section Holder

variable {sessions : Table TaskId SignalingSession} {peer : EndpointId} {via : RelayKey}

/-- A holder stays while a session is spawned or changed, if it is not the one that stops
    being a holder. -/
theorem Holder.insert {tid : TaskId} {session : SignalingSession} (h : Holder sessions peer via)
    (hsame : ∀ old, sessions.lookup tid = some old → old.live = true →
      session.live = true ∧ session.peer = old.peer ∧ session.via = old.via) :
    Holder (sessions.insert tid session) peer via := by
  obtain ⟨tid', old, hl, hlive, rfl, rfl⟩ := h
  by_cases heq : tid' = tid
  · subst heq
    exact ⟨tid', session, AList.lookup_insert _, hsame old hl hlive⟩
  · exact ⟨tid', old, Table.lookup_insert_some.2 (.inr ⟨heq, hl⟩), hlive, rfl, rfl⟩

/-- A holder stays while another session ends. -/
theorem Holder.erase {tid : TaskId} (h : Holder sessions peer via)
    (hother : ∀ old, sessions.lookup tid = some old → old.live = true → old.peer ≠ peer) :
    Holder (sessions.erase tid) peer via := by
  obtain ⟨tid', old, hl, hlive, rfl, rfl⟩ := h
  refine ⟨tid', old, Table.lookup_erase_some.2 ⟨?_, hl⟩, hlive, rfl, rfl⟩
  rintro rfl
  exact hother old hl hlive rfl

end Holder

/-! ## The invariant -/

/-- The invariant of the slots. -/
structure Inv (c : Slots) : Prop where
  spawned : ∀ tid session, c.sessions.lookup tid = some session → tid < c.nextSession
  /-- A slot that is taken is held by a live session. -/
  held : ∀ peer via, c.signaling.lookup peer = some via → Holder c.sessions peer via
  /-- An inbox belongs to a slot that is taken, and is bounded. -/
  inbox : ∀ peer inbox, c.inboxes.lookup peer = some inbox →
    (∃ via, c.signaling.lookup peer = some via) ∧ inbox.length ≤ inboxCap

/-- No session has the next id. -/
theorem Inv.fresh {c : Slots} (h : c.Inv) {session : SignalingSession} :
    c.sessions.lookup c.nextSession ≠ some session :=
  fun hl => absurd (h.spawned _ session hl) (Nat.lt_irrefl _)

/-- Filing a signal keeps the inboxes bounded. -/
theorem Inv.file {c : Slots} (h : c.Inv) {signaling : Table EndpointId RelayKey}
    {peer : EndpointId} {via : RelayKey} {payload : Bytes}
    (hkept : ∀ peer via, c.signaling.lookup peer = some via → ∃ via, signaling.lookup peer = some via)
    (htaken : signaling.lookup peer = some via) :
    ∀ peer' inbox, (Slots.file c.inboxes peer payload).lookup peer' = some inbox →
      (∃ via, signaling.lookup peer' = some via) ∧ inbox.length ≤ inboxCap := by
  have hbound : ((c.inboxes.lookup peer).getD []).length ≤ inboxCap := by
    cases hl : c.inboxes.lookup peer with
    | none => exact Nat.zero_le _
    | some inbox => exact (h.inbox peer inbox hl).2
  intro peer' inbox hl
  rcases Table.lookup_insert_some.1 hl with ⟨rfl, rfl⟩ | ⟨-, hl⟩
  · refine ⟨⟨via, htaken⟩, ?_⟩
    split <;> rename_i hlt
    · rw [List.length_append]
      exact hlt
    · exact hbound
  · obtain ⟨⟨via', hvia⟩, hlen⟩ := h.inbox peer' inbox hl
    exact ⟨hkept peer' via' hvia, hlen⟩

/-- Taking a slot keeps those that were taken. -/
theorem taken_insert {signaling : Table EndpointId RelayKey} {peer : EndpointId} {via : RelayKey} :
    ∀ peer' via', signaling.lookup peer' = some via' →
      ∃ via', (signaling.insert peer via).lookup peer' = some via' := by
  intro peer' via' hl
  by_cases heq : peer' = peer
  · subst heq
    exact ⟨via, AList.lookup_insert _⟩
  · exact ⟨via', Table.lookup_insert_some.2 (.inr ⟨heq, hl⟩)⟩

/-- Every step keeps the invariant. -/
theorem Inv.step {c c' : Slots} (h : c.Inv) (hst : Step c c') : c'.Inv := by
  have hspawn : ∀ {session} tid session', (c.sessions.insert c.nextSession session).lookup tid =
      some session' → tid < c.nextSession + 1 := by
    intro session tid session' hl
    rcases Table.lookup_insert_some.1 hl with ⟨rfl, -⟩ | ⟨-, hl⟩
    · exact Nat.lt_succ_self _
    · exact Nat.lt_succ_of_lt (h.spawned tid session' hl)
  have hchange : ∀ {tid session session'} , c.sessions.lookup tid = some session →
      ∀ tid' session'', (c.sessions.insert tid session').lookup tid' = some session'' →
      tid' < c.nextSession := by
    intro tid session session' hs tid' session'' hl
    rcases Table.lookup_insert_some.1 hl with ⟨rfl, -⟩ | ⟨-, hl⟩
    · exact h.spawned tid' session hs
    · exact h.spawned tid' session'' hl
  cases hst with
  | offer =>
    refine ⟨hspawn, fun peer via hv => ?_, h.inbox⟩
    -- The new session is not live yet, and it replaces no other one.
    exact (h.held peer via hv).insert fun old hl => absurd hl h.fresh
  | signal hv => exact ⟨h.spawned, h.held, h.file (fun _ via h => ⟨via, h⟩) hv⟩
  | @answer peer via payload hn =>
    refine ⟨hspawn, fun peer' via' hv => ?_, h.file taken_insert (AList.lookup_insert _)⟩
    rcases Table.lookup_insert_some.1 hv with ⟨rfl, rfl⟩ | ⟨-, hv⟩
    · exact ⟨c.nextSession, _, AList.lookup_insert _, rfl, rfl, rfl⟩
    · exact (h.held peer' via' hv).insert fun old hl => absurd hl h.fresh
  | @busy tid session hs hlive =>
    refine ⟨fun tid' s hl => h.spawned tid' s (Table.lookup_erase_some.1 hl).2,
      fun peer via hv => (h.held peer via hv).erase fun old hl hold => ?_, h.inbox⟩
    -- The session that ends holds no slot.
    cases Option.some.inj (hs.symm.trans hl)
    rw [hlive] at hold
    cases hold
  | @begin tid session hs hn =>
    refine ⟨hchange hs, fun peer via hv => ?_, fun peer inbox hl => ?_⟩
    · rcases Table.lookup_insert_some.1 hv with ⟨rfl, rfl⟩ | ⟨-, hv⟩
      · exact ⟨tid, _, AList.lookup_insert _, rfl, rfl, rfl⟩
      · refine (h.held peer via hv).insert fun old hl _ => ?_
        cases Option.some.inj (hs.symm.trans hl)
        exact ⟨rfl, rfl, rfl⟩
    · obtain ⟨⟨via, hvia⟩, hlen⟩ := h.inbox peer inbox hl
      exact ⟨taken_insert peer via hvia, hlen⟩
  | @publish tid session published hs =>
    refine ⟨hchange hs, fun peer via hv => (h.held peer via hv).insert fun old hl hold => ?_, h.inbox⟩
    cases Option.some.inj (hs.symm.trans hl)
    exact ⟨hold, rfl, rfl⟩
  | @take peer payload rest hpeer =>
    refine ⟨h.spawned, h.held, fun peer' inbox hl => ?_⟩
    rcases Table.lookup_insert_some.1 hl with ⟨rfl, rfl⟩ | ⟨-, hl⟩
    · obtain ⟨hvia, hlen⟩ := h.inbox peer' _ hpeer
      exact ⟨hvia, Nat.le_of_succ_le hlen⟩
    · exact h.inbox peer' inbox hl
  | @finish tid session hs hlive =>
    refine ⟨fun tid' s hl => h.spawned tid' s (Table.lookup_erase_some.1 hl).2,
      fun peer via hv => ?_, fun peer inbox hl => ?_⟩
    · -- The slots of the other peers are held by other sessions.
      obtain ⟨hne, hv⟩ := Table.lookup_erase_some.1 hv
      refine (h.held peer via hv).erase fun old hl _ => ?_
      cases Option.some.inj (hs.symm.trans hl)
      exact hne.symm
    · obtain ⟨hne, hl⟩ := Table.lookup_erase_some.1 hl
      obtain ⟨⟨via, hvia⟩, hlen⟩ := h.inbox peer inbox hl
      exact ⟨⟨via, Table.lookup_erase_some.2 ⟨hne, hvia⟩⟩, hlen⟩

/-- The invariant holds in every reachable state of the machine. -/
theorem Inv.reachable {c : Slots} (hr : machine.Reachable c) : c.Inv := by
  refine hr.invariant ?_ fun _ _ _ hst hi => hi.step hst
  rintro _ rfl
  exact ⟨nofun, nofun, nofun⟩

end Slots

/-! ## The endpoint refines the machine -/

open State Slots

/-- A failing relay touches no slot. -/
theorem Sys.FailsRelays.slots {s s' : Sys} (h : Sys.FailsRelays s s') : s'.slots = s.slots := by
  rw [FailsRelays] at h
  rw [h]
  rfl

/-- Spawning the requested upgrades is a run of the machine. -/
theorem Sys.foldl_spawnUpgrade_slots (l : List (EndpointId × RelayKey)) (s : Sys) :
    machine.Leads s.slots (l.foldl spawnUpgrade s).slots := by
  induction l generalizing s with
  | nil => exact .refl
  | cons upgrade l ih => exact .head .offer (ih (s.spawnUpgrade upgrade))

/-- An inbound signal is a run of the machine. -/
theorem Sys.handleSignal_slots (s : Sys) (via : RelayKey) (source : EndpointId) (payload : Bytes) :
    machine.Leads s.slots (s.handleSignal via source payload).slots := by
  rw [handleSignal, State.handleSignal]
  by_cases hc : (!s.st.webrtcEnabled || s.st.closed) = true
  · rw [if_pos hc]
    exact .refl
  · rw [if_neg hc]
    cases hl : s.st.signaling.lookup source with
    | some via' => exact .single (.signal hl)
    | none => exact .single (.answer hl)

/-- Taking a signal is a run of the machine. -/
theorem State.nextSignalCheck_slots (s : Sys) (peer : EndpointId) (started now : Instant) :
    machine.Leads s.slots (Sys.slots { s with st := (s.st.nextSignalCheck peer started now).1 }) := by
  have hpop : machine.Leads s.slots (Sys.slots { s with st := (s.st.popSignalInbox peer).1 }) := by
    rw [popSignalInbox]
    split <;> rename_i hl
    · exact .single (.take hl)
    · exact .refl
  rw [nextSignalCheck]
  split
  · exact .refl
  · split <;> rename_i h
    all_goals
      rw [h] at hpop
      exact hpop

/-- A step of the pump is a run of the machine. -/
theorem PumpStep.slots {s s' : Sys} (h : PumpStep s s') : machine.Leads s.slots s'.slots := by
  cases h with
  | drain _ hd =>
    rw [(drain_polls hd).woken]
    exact .refl
  | relaySendFailed =>
    split
    · exact .of_eq (s.failHome_fails _ _).slots
    · exact .refl
  | arm =>
    refine Relation.ReflTransGen.trans ?_ (Sys.foldl_spawnUpgrade_slots _ _)
    exact .refl
  | relaySignal => exact Sys.handleSignal_slots (s.takeRelayRecv _ _) _ _ _
  | relayDatagram _ _ _ _ hd =>
    rw [handleRelayDatagram_frame hd]
    exact .refl
  | relayFailed => exact .of_eq (Sys.failReceive_fails _ _ _ _).slots
  | udpReceived _ _ _ hd =>
    rw [handleDatagram_frame hd]
    exact .refl
  | channelDatagram _ _ _ hd =>
    rw [handleChannelDatagram_frame hd]
    exact .refl
  | channelFailed =>
    rw [retireChannel_frame]
    exact .refl
  | redialFailed =>
    rw [Sys.failRedial]
    split <;> exact .refl
  | tick => exact .of_eq (Sys.sweep_fails _ _ _).slots
  | closeRelays =>
    rw [foldl_closeRelay]
    exact .refl
  | closeWires =>
    rw [foldl_closeWire]
    exact .refl
  | _ => exact .refl

/-- A step of a `connect` call touches no slot. -/
theorem ConnectStep.slots {s s' : Sys} (h : ConnectStep s s') : s'.slots = s.slots := by
  rw [h.frame]
  rfl

/-- A step of a session is a run of the machine. -/
theorem SessionStep.slots {s s' : Sys} (h : SessionStep s s') : machine.Leads s.slots s'.slots := by
  cases h with
  | busy _ hs hl => exact .single (.busy hs hl)
  | begin _ hs _ hb =>
    obtain ⟨hp, rfl⟩ := beginSignaling_eq hb
    exact .single (.begin hs hp)
  | publish _ hs => exact .single (.publish hs)
  | receive => exact nextSignalCheck_slots s _ _ _
  | fail _ hs hl => exact .single (.finish hs hl)
  | upgraded _ hs hl _ hr | answered _ hs hl _ hr =>
    rw [registerChannel_frame hr]
    exact .single (.finish hs hl)

/-- The slots of the endpoint follow the machine. -/
theorem slots_simulation : Simulation endpoint machine Sys.slots where
  init := by
    rintro _ ⟨config, webrtc, now, st, key, hr, rfl⟩
    obtain ⟨-, -, rfl⟩ := registerRelay_eq hr
    rfl
  step := by
    intro s s' _ _ hst
    rcases hst.cases with h | h | h | h
    · exact h.slots
    · exact .of_eq h.slots
    · exact h.slots
    · rw [h.frame]
      exact .refl

/-! ## The steps of a session -/

/-- In the step from `s` to `s'`, a receive on the relay `key` resolves with a signal of
    `source`. -/
def Sys.Signals (s s' : Sys) (key : RelayKey) (source : EndpointId) (payload : Bytes) : Prop :=
  ∃ conn, (key, conn) ∈ s.pump.relayRecvs ∧
    s' = ((s.takeRelayRecv key conn).handleSignal key source payload).goto .top

/-- The pump spawns the requested upgrades, and takes signals. -/
theorem PumpStep.sessions_cases {s s' : Sys} (h : PumpStep s s') :
    s'.sessions = s.sessions ∨
      (∃ l s₀, s₀.slots = s.slots ∧ s' = List.foldl Sys.spawnUpgrade s₀ l) ∨
      ∃ key source payload, s.Signals s' key source payload := by
  cases h with
  | relaySendFailed =>
    refine .inl ?_
    split
    · exact congrArg Slots.sessions (s.failHome_fails _ _).slots
    · rfl
  | arm =>
    refine .inr (.inl ⟨_, _, ?_, rfl⟩)
    rfl
  | relaySignal _ _ hmem => exact .inr (.inr ⟨_, _, _, _, hmem, rfl⟩)
  | relayFailed => exact .inl (congrArg Slots.sessions (Sys.failReceive_fails _ _ _ _).slots)
  | redialFailed =>
    rw [Sys.failRedial]
    split <;> exact .inl rfl
  | tick => exact .inl (congrArg Slots.sessions (Sys.sweep_fails _ _ _).slots)
  | _ => exact .inl rfl

/-- The upgrades are spawned as offerers, with new ids. -/
theorem Sys.foldl_spawnUpgrade_lookup (l : List (EndpointId × RelayKey)) {s : Sys} {tid : TaskId} :
    (tid < s.nextSession → (l.foldl spawnUpgrade s).sessions.lookup tid = s.sessions.lookup tid) ∧
      ∀ session, (l.foldl spawnUpgrade s).sessions.lookup tid = some session →
        session.role = .answerer → s.sessions.lookup tid = some session := by
  induction l generalizing s with
  | nil => exact ⟨fun _ => rfl, fun _ hl _ => hl⟩
  | cons upgrade l ih =>
    obtain ⟨hold, hanswerer⟩ := ih (s := s.spawnUpgrade upgrade)
    refine ⟨fun ht => ?_, fun session hl hrole => ?_⟩
    · rw [List.foldl_cons, hold (Nat.lt_succ_of_lt ht), spawnUpgrade, Table.lookup_insert_eq,
        if_neg ht.ne]
    · rcases Table.lookup_insert_some.1 (hanswerer session hl hrole) with ⟨-, rfl⟩ | ⟨-, hl⟩
      · cases hrole
      · exact hl

/-- A signal spawns an answerer, or no session. -/
theorem Sys.Signals.sessions {s s' : Sys} {key : RelayKey} {source : EndpointId} {payload : Bytes}
    (h : s.Signals s' key source payload) :
    s'.sessions = s.sessions ∨ ((s.st.handleSignal key source payload).2 = true ∧
      s'.sessions = s.sessions.insert s.nextSession ⟨source, .answerer, key, true, []⟩) := by
  obtain ⟨conn, -, rfl⟩ := h
  have hst : (s.takeRelayRecv key conn).st = s.st := rfl
  rw [handleSignal, hst]
  cases hspawn : s.st.handleSignal key source payload with
  | mk st spawn =>
    cases spawn with
    | true => exact .inr ⟨rfl, rfl⟩
    | false => exact .inl rfl

/-- The pump only adds sessions. -/
theorem PumpStep.sessions {s s' : Sys} (h : PumpStep s s') {tid : TaskId}
    (ht : tid < s.nextSession) : s'.sessions.lookup tid = s.sessions.lookup tid := by
  rcases h.sessions_cases with h | ⟨l, s₀, hslots, rfl⟩ | ⟨_, _, _, h⟩
  · rw [h]
  · have hsessions : s₀.sessions = s.sessions := congrArg Slots.sessions hslots
    have hnext : s₀.nextSession = s.nextSession := congrArg Slots.nextSession hslots
    rw [(Sys.foldl_spawnUpgrade_lookup l).1 (ht.trans_eq hnext.symm), hsessions]
  · rcases h.sessions with h | ⟨-, h⟩ <;> rw [h]
    rw [Table.lookup_insert_eq, if_neg ht.ne]

/-- An answerer is spawned by a signal. -/
theorem Step.answerers {s s' : Sys} (h : Step s s') {tid : TaskId} {session : SignalingSession}
    (hl : s'.sessions.lookup tid = some session) (hrole : session.role = .answerer) :
    (∃ tid old, s.sessions.lookup tid = some old ∧ old.role = .answerer ∧ old.via = session.via) ∨
      ∃ source payload, s.Signals s' session.via source payload ∧
        (s.st.handleSignal session.via source payload).2 = true := by
  have hsame : s'.sessions = s.sessions → ∃ tid old, s.sessions.lookup tid = some old ∧
      old.role = .answerer ∧ old.via = session.via :=
    fun hs => ⟨tid, session, hs ▸ hl, hrole, rfl⟩
  have herase : ∀ {tid₀}, s'.sessions = s.sessions.erase tid₀ → ∃ tid old,
      s.sessions.lookup tid = some old ∧ old.role = .answerer ∧ old.via = session.via :=
    fun hs => ⟨tid, session, (Table.lookup_erase_some.1 (hs ▸ hl)).2, hrole, rfl⟩
  have hinsert : ∀ {tid₀ old new}, s.sessions.lookup tid₀ = some old →
      s'.sessions = s.sessions.insert tid₀ new → new.role = old.role → new.via = old.via →
      ∃ tid old, s.sessions.lookup tid = some old ∧ old.role = .answerer ∧
        old.via = session.via := by
    intro tid₀ old new hl₀ hs hr hv
    rw [hs] at hl
    rcases Table.lookup_insert_some.1 hl with ⟨-, rfl⟩ | ⟨-, hl⟩
    · exact ⟨tid₀, old, hl₀, hr ▸ hrole, hv.symm⟩
    · exact ⟨tid, session, hl, hrole, rfl⟩
  -- Of the steps of the pump, only a signal spawns an answerer.
  rcases h.cases with h | h | h | h
  · rcases h.sessions_cases with h | ⟨l, s₀, hslots, rfl⟩ | ⟨key, source, payload, h⟩
    · exact .inl (hsame h)
    · have hsessions : s₀.sessions = s.sessions := congrArg Slots.sessions hslots
      have hold := (Sys.foldl_spawnUpgrade_lookup l).2 session hl hrole
      exact .inl ⟨tid, session, hsessions ▸ hold, hrole, rfl⟩
    · rcases h.sessions with hs | ⟨hspawn, hs⟩
      · exact .inl (hsame hs)
      · rw [hs] at hl
        rcases Table.lookup_insert_some.1 hl with ⟨-, rfl⟩ | ⟨-, hl⟩
        · exact .inr ⟨source, payload, h, hspawn⟩
        · exact .inl ⟨tid, session, hl, hrole, rfl⟩
  · exact .inl (hsame (congrArg Slots.sessions h.slots))
  · cases h with
    | busy | fail | upgraded | answered => exact .inl (herase rfl)
    | begin _ hl₀ | publish _ hl₀ => exact .inl (hinsert hl₀ rfl rfl rfl)
    | receive => exact .inl (hsame rfl)
  · exact .inl (hsame (by rw [h.frame]))

/-- A session changes by its own steps. -/
theorem Step.sessions {s s' : Sys} (hs : endpoint.Reachable s) (h : Step s s') :
    SessionStep s s' ∨ ∀ tid session, s.sessions.lookup tid = some session →
      s'.sessions.lookup tid = some session := by
  have hi := Slots.Inv.reachable (slots_simulation.reachable hs)
  rcases h.cases with h | h | h | h
  · exact .inr fun tid session hl => (h.sessions (hi.spawned tid session hl)).trans hl
  · have hsame : s'.sessions = s.sessions := congrArg Slots.sessions h.slots
    exact .inr fun tid session hl => hsame ▸ hl
  · exact .inl h
  · exact .inr fun tid session hl => by rw [h.frame, hl]

/-- A session that holds no slot, and whose peer's slot is taken, can only end, and then
    nothing else changes. -/
theorem Step.busy {s s' : Sys} (hs : endpoint.Reachable s) (h : Step s s') {tid : TaskId}
    {session : SignalingSession} (hl : s.sessions.lookup tid = some session)
    (hlive : session.live = false) {via : RelayKey}
    (htaken : s.st.signaling.lookup session.peer = some via)
    (hmoves : s'.sessions.lookup tid ≠ some session) :
    s' = { s with sessions := s.sessions.erase tid } := by
  have h := (h.sessions hs).resolve_right fun hsame => hmoves (hsame tid session hl)
  -- The step is one of this session, which is not live.
  have hthis : ∀ {tid₀ session₀}, s.sessions.lookup tid₀ = some session₀ →
      (s'.sessions = s.sessions.erase tid₀ ∨ ∃ new, s'.sessions = s.sessions.insert tid₀ new) →
      tid₀ = tid ∧ session₀ = session := by
    intro tid₀ session₀ hl₀ hsessions
    by_cases heq : tid = tid₀
    · subst heq
      exact ⟨rfl, Option.some.inj (hl₀.symm.trans hl)⟩
    · refine absurd ?_ hmoves
      rcases hsessions with hsessions | ⟨new, hsessions⟩ <;> rw [hsessions]
      · rw [Table.lookup_erase_eq, if_neg heq, hl]
      · rw [Table.lookup_insert_eq, if_neg heq, hl]
  cases h with
  | busy _ hl₀ =>
    obtain ⟨rfl, -⟩ := hthis hl₀ (.inl rfl)
    rfl
  | begin _ hl₀ _ hb =>
    obtain ⟨rfl, rfl⟩ := hthis hl₀ (.inr ⟨_, rfl⟩)
    rw [beginSignaling, htaken] at hb
    cases hb
  | publish _ hl₀ hlive₀ =>
    obtain ⟨rfl, rfl⟩ := hthis hl₀ (.inr ⟨_, rfl⟩)
    cases hlive₀.symm.trans hlive
  | receive => exact absurd hl hmoves
  | fail _ hl₀ hlive₀ | upgraded _ hl₀ hlive₀ | answered _ hl₀ hlive₀ =>
    obtain ⟨rfl, rfl⟩ := hthis hl₀ (.inl rfl)
    cases hlive₀.symm.trans hlive

/-- A session that ends leaves alone the slots and inboxes of the peers it has no slot
    of. -/
theorem Step.ends {s s' : Sys} (hs : endpoint.Reachable s) (h : Step s s') {tid : TaskId}
    {session : SignalingSession} (hl : s.sessions.lookup tid = some session)
    (hends : s'.sessions.lookup tid = none) {peer : EndpointId}
    (hpeer : session.live = true → peer ≠ session.peer) :
    s'.st.signaling.lookup peer = s.st.signaling.lookup peer ∧
      s'.st.signalInboxes.lookup peer = s.st.signalInboxes.lookup peer := by
  have h := (h.sessions hs).resolve_right fun hsame =>
    nomatch (hsame tid session hl).symm.trans hends
  have hthis : ∀ {tid₀ session₀}, s.sessions.lookup tid₀ = some session₀ →
      s'.sessions = s.sessions.erase tid₀ → session₀ = session := by
    intro tid₀ session₀ hl₀ hsessions
    by_cases heq : tid = tid₀
    · subst heq
      exact Option.some.inj (hl₀.symm.trans hl)
    · rw [hsessions, Table.lookup_erase_eq, if_neg heq, hl] at hends
      cases hends
  have hstays : ∀ {tid₀ new}, s'.sessions = s.sessions.insert tid₀ new → False := by
    intro tid₀ new hsessions
    rw [hsessions, Table.lookup_insert_eq] at hends
    split at hends
    · cases hends
    · cases hl.symm.trans hends
  have hfreed : ∀ {st : State}, session.live = true →
      st.signaling = s.st.signaling.erase session.peer →
      st.signalInboxes = s.st.signalInboxes.erase session.peer →
      st.signaling.lookup peer = s.st.signaling.lookup peer ∧
        st.signalInboxes.lookup peer = s.st.signalInboxes.lookup peer := by
    intro st hlive hsig hin
    rw [hsig, hin, Table.lookup_erase_eq, Table.lookup_erase_eq, if_neg (hpeer hlive),
      if_neg (hpeer hlive)]
    exact ⟨rfl, rfl⟩
  -- A session that ends frees its slot only if it is live.
  cases h with
  | busy => exact ⟨rfl, rfl⟩
  | begin | publish => exact (hstays rfl).elim
  | receive => cases hl.symm.trans hends
  | fail _ hl₀ hlive =>
    obtain rfl := hthis hl₀ rfl
    exact hfreed hlive rfl rfl
  | upgraded _ hl₀ hlive _ hr =>
    obtain rfl := hthis hl₀ rfl
    rw [registerChannel_frame hr]
    exact hfreed hlive rfl rfl
  | answered _ hl₀ hlive _ hr =>
    obtain rfl := hthis hl₀ rfl
    rw [registerChannel_frame hr]
    exact hfreed hlive rfl rfl

/-! ## The claimed slots -/

/-- A peer has at most one live session, which holds the peer's slot. -/
structure OneSession (s : Sys) : Prop where
  unique : ∀ tid tid' session session', s.sessions.lookup tid = some session →
    s.sessions.lookup tid' = some session' → session.live = true → session'.live = true →
    session.peer = session'.peer → tid = tid'
  /-- A slot is taken exactly if its peer has a live session, and names the relay that
      session was started with. -/
  slot : ∀ peer via, s.st.signaling.lookup peer = some via ↔
    ∃ tid session, s.sessions.lookup tid = some session ∧ session.live = true ∧
      session.peer = peer ∧ session.via = via
  /-- An inbox belongs to a slot that is taken, and is bounded. -/
  inbox : ∀ peer inbox, s.st.signalInboxes.lookup peer = some inbox →
    (s.st.signaling.lookup peer).isSome ∧ inbox.length ≤ inboxCap
  /-- An offerer that finds the slot taken ends, and nothing else changes. -/
  busy : ∀ tid session, s.sessions.lookup tid = some session → session.live = false →
    (s.st.signaling.lookup session.peer).isSome → ∀ s', Step s s' →
    s'.sessions.lookup tid ≠ some session → s' = { s with sessions := s.sessions.erase tid }
  /-- A session that ends leaves the slots and inboxes of the others alone. -/
  ends : ∀ tid session, s.sessions.lookup tid = some session → ∀ s', Step s s' →
    s'.sessions.lookup tid = none → ∀ tid' other, tid' ≠ tid →
    s.sessions.lookup tid' = some other → other.live = true →
    s'.st.signaling.lookup other.peer = some other.via ∧
      s'.st.signalInboxes.lookup other.peer = s.st.signalInboxes.lookup other.peer

/-- In every reachable state, a peer has at most one session. -/
theorem oneSession_reachable {s : Sys} (hs : endpoint.Reachable s) : OneSession s := by
  have hsig := Signaling.Inv.reachable (signaling_simulation.reachable hs)
  have hi := Slots.Inv.reachable (slots_simulation.reachable hs)
  refine ⟨hsig.unique, fun peer via => ⟨hi.held peer via, ?_⟩, fun peer inbox hl => ?_,
    fun tid session hl hlive htaken s' hst => ?_,
    fun tid session hl s' hst hends tid' other hne hl' hlive' => ?_⟩
  · rintro ⟨tid, session, hl, hlive, rfl, rfl⟩
    exact hsig.slot tid session hl hlive
  · obtain ⟨⟨via, hvia⟩, hlen⟩ := hi.inbox peer inbox hl
    exact ⟨Option.isSome_iff_exists.2 ⟨via, hvia⟩, hlen⟩
  · obtain ⟨via, hvia⟩ := Option.isSome_iff_exists.1 htaken
    exact hst.busy hs hl hlive hvia
  · -- The other session has another peer, unless the one that ends holds no slot.
    have hother : session.live = true → other.peer ≠ session.peer :=
      fun hlive hp => hne (hsig.unique tid' tid other session hl' hl hlive' hlive hp)
    obtain ⟨hslot, hinbox⟩ := hst.ends hs hl hends hother
    exact ⟨hslot.trans (hsig.slot tid' other hl' hlive'), hinbox⟩

/-- The first signal of a peer claims its slot, and is filed. -/
theorem oneSession_answerer : ∃ (s : Sys) (peer : EndpointId),
    s.st.signaling.lookup peer = some homeRelay ∧ s.st.signalInboxes.lookup peer = some [[]] ∧
      OneSession s := by
  have hidle := idle_reachable (.relayOnly "https://home.example") true 0
  have hsignal := hidle.step (.pump (@PumpStep.relaySignal _ homeRelay ⟨0⟩ (Vector.replicate 32 7)
    [signalPrefix] rfl rfl List.mem_cons_self rfl))
  exact ⟨_, Vector.replicate 32 7, rfl, rfl, oneSession_reachable hsignal⟩

end IrohEndpoint
