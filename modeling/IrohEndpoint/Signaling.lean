import IrohEndpoint.Routing

/-!
# Signaling sessions and the relay a channel falls back to

A signaling session holds its peer's slot, which names the relay it signals
through. `Signaling` is that part of the endpoint, with the channels that the
sessions registered, and `Signaling.machine` says what may happen to it. Its
invariant (`Signaling.Inv`) is that the slot of a live session names the relay
the session was started with.

A channel registered while the slot is held falls back to that relay. The
answerer registers its channel so. The offerer registers its channel after its
session guard has freed the slot, and `register_channel` then takes the home
relay: a channel falls back to the relay it was signaled through exactly if it
was registered by an answerer, or signaled through the home relay
(`fallsBack_iff`).
-/

namespace IrohEndpoint

open Transition

/-! ## The machine -/

/-- The signaling slots, the sessions, and the channels they registered. -/
structure Signaling where
  slots : Table EndpointId RelayKey
  sessions : Table TaskId SignalingSession
  nextSession : TaskId
  channels : Table ChannelId ChannelEntry
  nextChannelId : ℕ
  registrations : List Registration

/-- The signaling part of the endpoint. -/
def Sys.signaling (s : Sys) : Signaling where
  slots := s.st.signaling
  sessions := s.sessions
  nextSession := s.nextSession
  channels := s.st.channels
  nextChannelId := s.st.nextChannelId
  registrations := s.registrations

namespace Signaling

/-- The state with a channel registered by `session`, falling back to `key`. -/
def register (g : Signaling) (session : SignalingSession) (wire : ChannelWire) (key : RelayKey) :
    Signaling :=
  { g with
    nextChannelId := g.nextChannelId + 1
    channels := g.channels.insert (g.nextChannelId + 1) ⟨wire, session.peer, key⟩
    registrations :=
      g.registrations ++ [⟨g.nextChannelId + 1, session, ⟨wire, session.peer, key⟩⟩] }

/-- The state with the session `tid` ended, and the slot of its peer freed. -/
def finish (g : Signaling) (tid : TaskId) (peer : EndpointId) : Signaling :=
  { g with slots := g.slots.erase peer, sessions := g.sessions.erase tid }

/-- What may happen to the sessions and the channels. -/
inductive Step : Signaling → Signaling → Prop
  /-- An offerer is spawned. -/
  | offer {g : Signaling} {peer : EndpointId} {via : RelayKey} :
      Step g { g with
        sessions := g.sessions.insert g.nextSession ⟨peer, .offerer, via, false, []⟩
        nextSession := g.nextSession + 1 }
  /-- An answerer is spawned, with its peer's slot. -/
  | answer {g : Signaling} {peer : EndpointId} {via : RelayKey} :
      g.slots.lookup peer = none →
      Step g { g with
        slots := g.slots.insert peer via
        sessions := g.sessions.insert g.nextSession ⟨peer, .answerer, via, true, []⟩
        nextSession := g.nextSession + 1 }
  /-- An offerer finds its peer's slot taken. -/
  | busy {g : Signaling} {tid : TaskId} : Step g { g with sessions := g.sessions.erase tid }
  /-- An offerer takes its peer's slot. -/
  | begin {g : Signaling} {tid : TaskId} {session : SignalingSession} :
      g.sessions.lookup tid = some session → g.slots.lookup session.peer = none →
      Step g { g with
        slots := g.slots.insert session.peer session.via
        sessions := g.sessions.insert tid { session with live := true } }
  /-- A session publishes a signal through the relay its slot names. -/
  | publish {g : Signaling} {tid : TaskId} {session : SignalingSession} {relay : RelayKey} :
      g.sessions.lookup tid = some session → session.live = true →
      g.slots.lookup session.peer = some relay →
      Step g { g with
        sessions := g.sessions.insert tid
          { session with published := session.published ++ [relay] } }
  /-- A session ends without a channel. -/
  | fail {g : Signaling} {tid : TaskId} {session : SignalingSession} :
      g.sessions.lookup tid = some session → session.live = true →
      Step g (g.finish tid session.peer)
  /-- An offerer ends, and then registers its channel. -/
  | upgraded {g : Signaling} {tid : TaskId} {session : SignalingSession} {wire : ChannelWire} :
      g.sessions.lookup tid = some session → session.live = true → session.role = .offerer →
      Step g ((g.finish tid session.peer).register session wire
        (((g.finish tid session.peer).slots.lookup session.peer).getD homeRelay))
  /-- An answerer registers its channel, and then ends. -/
  | answered {g : Signaling} {tid : TaskId} {session : SignalingSession} {wire : ChannelWire} :
      g.sessions.lookup tid = some session → session.live = true → session.role = .answerer →
      Step g ((g.register session wire
        ((g.slots.lookup session.peer).getD homeRelay)).finish tid session.peer)
  /-- A channel is retired. -/
  | retire {g : Signaling} {id : ChannelId} : Step g { g with channels := g.channels.erase id }

/-- The machine starts with no session and no channel. -/
def machine : System Signaling where
  init := {⟨∅, ∅, 0, ∅, 0, []⟩}
  step := Step

/-- What is known of a registered channel: the relays its session published
    through, and where it falls back to. -/
structure Registered (reg : Registration) : Prop where
  published : ∀ key ∈ reg.session.published, key = reg.session.via
  peer : reg.entry.peer = reg.session.peer
  fallback : reg.entry.fallbackRelay =
    match reg.session.role with
    | .offerer => homeRelay
    | .answerer => reg.session.via

/-- The invariant of the sessions. -/
structure Inv (g : Signaling) : Prop where
  /-- The sessions are those spawned so far. -/
  spawned : ∀ tid session, g.sessions.lookup tid = some session → tid < g.nextSession
  /-- The slot of a live session names the relay it was started with. -/
  slot : ∀ tid session, g.sessions.lookup tid = some session → session.live = true →
    g.slots.lookup session.peer = some session.via
  /-- A peer has one live session. -/
  unique : ∀ tid tid' session session', g.sessions.lookup tid = some session →
    g.sessions.lookup tid' = some session' → session.live = true → session'.live = true →
    session.peer = session'.peer → tid = tid'
  published : ∀ tid session, g.sessions.lookup tid = some session →
    ∀ key ∈ session.published, key = session.via
  registered : ∀ reg ∈ g.registrations, Registered reg
  /-- An open channel is as it was registered. -/
  channel : ∀ reg ∈ g.registrations, ∀ entry, g.channels.lookup reg.id = some entry →
    entry = reg.entry
  numbered : ∀ reg ∈ g.registrations, reg.id ≤ g.nextChannelId
  /-- Every open channel was registered. -/
  known : ∀ id entry, g.channels.lookup id = some entry →
    ∃ reg ∈ g.registrations, reg.id = id ∧ reg.entry = entry

/-- A peer whose slot is free has no live session. -/
theorem Inv.not_live {g : Signaling} (h : g.Inv) {peer : EndpointId}
    (hp : g.slots.lookup peer = none) {tid : TaskId} {session : SignalingSession}
    (hs : g.sessions.lookup tid = some session) (hl : session.live = true) :
    session.peer ≠ peer := by
  rintro rfl
  rw [h.slot tid session hs hl] at hp
  cases hp

/-- A session is spawned or changed: it keeps the invariant if it is the only live
    one of its peer and its slot names its relay. -/
theorem Inv.insert {g : Signaling} (h : g.Inv) {slots : Table EndpointId RelayKey} {tid n : TaskId}
    {session : SignalingSession} (hn : g.nextSession ≤ n) (ht : tid < n)
    (hslots : ∀ tid' session', g.sessions.lookup tid' = some session' → tid' ≠ tid →
      session'.live = true → slots.lookup session'.peer = g.slots.lookup session'.peer)
    (hslot : session.live = true → slots.lookup session.peer = some session.via)
    (hunique : session.live = true → ∀ tid' session', g.sessions.lookup tid' = some session' →
      tid' ≠ tid → session'.live = true → session'.peer ≠ session.peer)
    (hpublished : ∀ key ∈ session.published, key = session.via) :
    Inv { g with slots := slots, sessions := g.sessions.insert tid session, nextSession := n } := by
  have hcases : ∀ {tid' session'}, (g.sessions.insert tid session).lookup tid' = some session' →
      (tid' = tid ∧ session' = session) ∨ (tid' ≠ tid ∧ g.sessions.lookup tid' = some session') :=
    Table.lookup_insert_some.1
  refine { h with spawned := ?_, slot := ?_, unique := ?_, published := ?_ }
  · intro tid' session' hs
    rcases hcases hs with ⟨rfl, rfl⟩ | ⟨-, hs⟩
    · exact ht
    · exact lt_of_lt_of_le (h.spawned tid' session' hs) hn
  · intro tid' session' hs hl
    rcases hcases hs with ⟨rfl, rfl⟩ | ⟨hne, hs⟩
    · exact hslot hl
    · exact (hslots tid' session' hs hne hl).trans (h.slot tid' session' hs hl)
  · intro tid₁ tid₂ session₁ session₂ hs₁ hs₂ hl₁ hl₂ hp
    rcases hcases hs₁ with ⟨ht₁, he₁⟩ | ⟨hne₁, hg₁⟩ <;>
      rcases hcases hs₂ with ⟨ht₂, he₂⟩ | ⟨hne₂, hg₂⟩
    · rw [ht₁, ht₂]
    · subst he₁
      exact absurd hp.symm (hunique hl₁ tid₂ session₂ hg₂ hne₂ hl₂)
    · subst he₂
      exact absurd hp (hunique hl₂ tid₁ session₁ hg₁ hne₁ hl₁)
    · exact h.unique tid₁ tid₂ session₁ session₂ hg₁ hg₂ hl₁ hl₂ hp
  · intro tid' session' hs
    rcases hcases hs with ⟨rfl, rfl⟩ | ⟨-, hs⟩
    · exact hpublished
    · exact h.published tid' session' hs

/-- Sessions are dropped. -/
theorem Inv.erase {g : Signaling} (h : g.Inv) {slots : Table EndpointId RelayKey} {tid : TaskId}
    (hslots : ∀ tid' session', g.sessions.lookup tid' = some session' → tid' ≠ tid →
      session'.live = true → slots.lookup session'.peer = g.slots.lookup session'.peer) :
    Inv { g with slots := slots, sessions := g.sessions.erase tid } := by
  have hcases : ∀ {tid' session'}, (g.sessions.erase tid).lookup tid' = some session' →
      tid' ≠ tid ∧ g.sessions.lookup tid' = some session' :=
    Table.lookup_erase_some.1
  refine { h with spawned := ?_, slot := ?_, unique := ?_, published := ?_ }
  · exact fun tid' session' hs => h.spawned tid' session' (hcases hs).2
  · intro tid' session' hs hl
    obtain ⟨hne, hs⟩ := hcases hs
    exact (hslots tid' session' hs hne hl).trans (h.slot tid' session' hs hl)
  · exact fun tid₁ tid₂ session₁ session₂ hs₁ hs₂ =>
      h.unique tid₁ tid₂ session₁ session₂ (hcases hs₁).2 (hcases hs₂).2
  · exact fun tid' session' hs => h.published tid' session' (hcases hs).2

/-- The session that held its peer's slot ends. -/
theorem Inv.finish {g : Signaling} (h : g.Inv) {tid : TaskId} {session : SignalingSession}
    (hs : g.sessions.lookup tid = some session) (hl : session.live = true) :
    (g.finish tid session.peer).Inv := by
  refine h.erase fun tid' session' hs' hne hl' => ?_
  rw [Table.lookup_erase_eq, if_neg]
  exact fun hp => hne (h.unique tid' tid session' session hs' hs hl' hl hp)

/-- A channel is registered. -/
theorem Inv.register {g : Signaling} (h : g.Inv) {session : SignalingSession} {wire : ChannelWire}
    {key : RelayKey}
    (hreg : Registered ⟨g.nextChannelId + 1, session, ⟨wire, session.peer, key⟩⟩) :
    (g.register session wire key).Inv := by
  have hcases : ∀ {reg}, reg ∈ (g.register session wire key).registrations →
      reg ∈ g.registrations ∨ reg = ⟨g.nextChannelId + 1, session, ⟨wire, session.peer, key⟩⟩ :=
    fun hreg => (List.mem_append.1 hreg).imp_right List.mem_singleton.1
  refine { h with registered := ?_, channel := ?_, numbered := ?_, known := ?_ }
  · intro reg hr
    rcases hcases hr with hr | rfl
    · exact h.registered reg hr
    · exact hreg
  · intro reg hr entry he
    replace he : (g.channels.insert (g.nextChannelId + 1) ⟨wire, session.peer, key⟩).lookup reg.id =
      some entry := he
    rw [Table.lookup_insert_eq] at he
    rcases hcases hr with hr | rfl
    · -- The channels registered before have smaller ids.
      have hle := h.numbered reg hr
      rw [if_neg (Nat.ne_of_lt (Nat.lt_succ_of_le hle))] at he
      exact h.channel reg hr entry he
    · rw [if_pos rfl] at he
      exact (Option.some.inj he).symm
  · intro reg hr
    rcases hcases hr with hr | rfl
    · exact Nat.le_succ_of_le (h.numbered reg hr)
    · exact le_refl _
  · intro id entry he
    replace he : (g.channels.insert (g.nextChannelId + 1) ⟨wire, session.peer, key⟩).lookup id =
      some entry := he
    rw [Table.lookup_insert_eq] at he
    split at he <;> rename_i hid
    · exact ⟨_, List.mem_append_right _ List.mem_cons_self, hid.symm, Option.some.inj he⟩
    · obtain ⟨reg, hr, hreg⟩ := h.known id entry he
      exact ⟨reg, List.mem_append_left _ hr, hreg⟩

/-- Every step keeps the invariant. -/
theorem Inv.step {g g' : Signaling} (h : g.Inv) (hst : Step g g') : g'.Inv := by
  have hfresh : ∀ tid session, g.sessions.lookup tid = some session → tid ≠ g.nextSession :=
    fun tid session hs => Nat.ne_of_lt (h.spawned tid session hs)
  cases hst with
  | offer =>
    exact h.insert (Nat.le_succ _) (Nat.lt_succ_self _) (fun _ _ _ _ _ => rfl) nofun nofun nofun
  | @answer peer via hp =>
    refine h.insert (Nat.le_succ _) (Nat.lt_succ_self _) (fun tid' session' hs _ hl => ?_)
      (fun _ => AList.lookup_insert _) (fun _ tid' session' hs _ hl => h.not_live hp hs hl) nofun
    rw [Table.lookup_insert_eq, if_neg (h.not_live hp hs hl)]
  | busy => exact h.erase fun _ _ _ _ _ => rfl
  | @begin tid session hs hp =>
    refine h.insert (le_refl _) (h.spawned tid session hs) (fun tid' session' hs' _ hl => ?_)
      (fun _ => AList.lookup_insert _) (fun _ tid' session' hs' _ hl => h.not_live hp hs' hl)
      (h.published tid session hs)
    rw [Table.lookup_insert_eq, if_neg (h.not_live hp hs' hl)]
  | @publish tid session relay hs hl hr =>
    -- A signal goes to the relay that the slot names, which is that of the session.
    have hslot := h.slot tid session hs hl
    refine h.insert (le_refl _) (h.spawned tid session hs) (fun _ _ _ _ _ => rfl) (fun _ => hslot)
      (fun _ tid' session' hs' hne hl' hp => hne (h.unique _ _ _ _ hs' hs hl' hl hp))
      (fun key hk => ?_)
    rcases List.mem_append.1 hk with hk | hk
    · exact h.published tid session hs key hk
    · rw [List.mem_singleton.1 hk]
      exact Option.some.inj (hr.symm.trans hslot)
  | fail hs hl => exact h.finish hs hl
  | @upgraded tid session wire hs hl hrole =>
    -- The slot is free when the channel is registered.
    refine (h.finish hs hl).register ⟨h.published tid session hs, rfl, ?_⟩
    dsimp only
    rw [hrole, Signaling.finish, AList.lookup_erase]
    rfl
  | @answered tid session wire hs hl hrole =>
    -- The slot still names the session's relay.
    have hreg : (g.register session wire ((g.slots.lookup session.peer).getD homeRelay)).Inv := by
      refine h.register ⟨h.published tid session hs, rfl, ?_⟩
      dsimp only
      rw [hrole, h.slot tid session hs hl]
      rfl
    exact hreg.finish hs hl
  | @retire id =>
    have hold : ∀ {id' entry}, (g.channels.erase id).lookup id' = some entry →
        g.channels.lookup id' = some entry := by
      intro id' entry he
      rw [Table.lookup_erase_eq] at he
      split at he
      · cases he
      · exact he
    exact { h with
      channel := fun reg hr entry he => h.channel reg hr entry (hold he)
      known := fun id' entry he => h.known id' entry (hold he) }

/-- The invariant holds in every reachable state of the machine. -/
theorem Inv.reachable {g : Signaling} (h : machine.Reachable g) : g.Inv := by
  refine h.invariant ?_ fun _ _ _ hst hi => hi.step hst
  rintro _ rfl
  exact ⟨nofun, nofun, nofun, nofun, nofun, nofun, nofun, nofun⟩

end Signaling

/-! ## The endpoint refines the machine -/

open State Signaling

/-- Spawning the requested upgrades is a run of the machine. -/
theorem Sys.foldl_spawnUpgrade_leads (l : List (EndpointId × RelayKey)) (s : Sys) :
    machine.Leads s.signaling (l.foldl spawnUpgrade s).signaling := by
  induction l generalizing s with
  | nil => exact .refl
  | cons upgrade l ih => exact .head .offer (ih (s.spawnUpgrade upgrade))

/-- A failing relay changes no session. -/
theorem Sys.FailsRelays.signaling {s s' : Sys} (h : Sys.FailsRelays s s') :
    s'.signaling = s.signaling := by
  rw [FailsRelays] at h
  rw [h]
  rfl

/-- A step of the pump is a run of the machine. -/
theorem PumpStep.signaling {s s' : Sys} (h : PumpStep s s') :
    machine.Leads s.signaling s'.signaling := by
  cases h with
  | drain _ hd =>
    rw [(drain_polls hd).woken]
    exact .refl
  | relaySendFailed =>
    split
    · exact .of_eq (s.failHome_fails _ _).signaling
    · exact .refl
  | arm =>
    refine Relation.ReflTransGen.trans ?_ (Sys.foldl_spawnUpgrade_leads _ _)
    exact .refl
  | relaySignal =>
    rcases Sys.handleSignal_cases (s.takeRelayRecv _ _) _ _ _ with h | ⟨_, h⟩ | ⟨_, hn, h⟩ <;>
      rw [h]
    · exact .refl
    · exact .refl
    · exact .single (.answer hn)
  | relayDatagram _ _ _ _ hd =>
    rw [handleRelayDatagram_frame hd]
    exact .refl
  | relayFailed => exact .of_eq (Sys.failReceive_fails _ _ _ _).signaling
  | udpReceived _ _ _ hd =>
    rw [handleDatagram_frame hd]
    exact .refl
  | channelDatagram _ _ _ hd =>
    rw [handleChannelDatagram_frame hd]
    exact .refl
  | channelFailed =>
    rw [retireChannel_frame]
    exact .single .retire
  | redialFailed =>
    rw [Sys.failRedial]
    split <;> exact .refl
  | tick => exact .of_eq (Sys.sweep_fails _ _ _).signaling
  | closeRelays =>
    rw [foldl_closeRelay]
    exact .refl
  | closeWires =>
    rw [foldl_closeWire]
    exact .refl
  | _ => exact .refl

/-- A step of a `connect` call changes no session and no channel. -/
theorem ConnectStep.signaling {s s' : Sys} (h : ConnectStep s s') :
    s'.signaling = s.signaling := by
  rw [h.frame]
  rfl

/-- A channel that is refused is not recorded, and one that is accepted is, with
    its entry. -/
theorem registerChannel_signaling {s st : State} {session : SignalingSession} {wire : ChannelWire}
    {result : Except Error Unit} (h : s.registerChannel session.peer wire = .ok (st, result)) :
    st.signaling = s.signaling ∧
      ((st.channels = s.channels ∧ st.nextChannelId = s.nextChannelId ∧
          session.registration s st = []) ∨
        ∃ key, key = (s.signaling.lookup session.peer).getD homeRelay ∧
          st.nextChannelId = s.nextChannelId + 1 ∧
          st.channels = s.channels.insert (s.nextChannelId + 1) ⟨wire, session.peer, key⟩ ∧
          session.registration s st =
            [⟨s.nextChannelId + 1, session, ⟨wire, session.peer, key⟩⟩]) := by
  refine ⟨by rw [registerChannel_frame h], ?_⟩
  rcases registerChannel_cases h with ⟨-, rfl⟩ | ⟨-, -, s₁, addr, h₁, rfl⟩
  · exact .inl ⟨rfl, rfl, if_pos rfl⟩
  · refine .inr ⟨_, rfl, ?_, ?_, ?_⟩
    · rw [addrForPeer_frame h₁]
      rfl
    · rw [addrForPeer_frame h₁]
      rfl
    · rw [SignalingSession.registration, addrForPeer_frame h₁, if_neg]
      · dsimp only [kickPump]
        rw [AList.lookup_insert]
        rfl
      · exact Nat.ne_of_lt (Nat.lt_succ_self _)

/-- A step of a signaling session is a run of the machine. -/
theorem SessionStep.signaling {s s' : Sys} (h : SessionStep s s') :
    machine.Leads s.signaling s'.signaling := by
  cases h with
  | busy => exact .single .busy
  | begin _ hs _ hb =>
    obtain ⟨hp, rfl⟩ := beginSignaling_eq hb
    exact .single (.begin hs hp)
  | publish _ hs hl hr => exact .single (.publish hs hl hr)
  | receive =>
    rw [nextSignalCheck_frame]
    exact .refl
  | fail _ hs hl => exact .single (.fail hs hl)
  | upgraded _ hs hl hrole hr =>
    rcases registerChannel_signaling hr with ⟨hsig, ⟨hc, hn, he⟩ | ⟨key, rfl, hn, hc, he⟩⟩
    · -- A closed endpoint refuses the channel: the session only ends.
      replace he : SignalingSession.registration _ s.st _ = _ := he
      refine .single_of_eq (.fail hs hl) ?_
      simp only [Sys.signaling, finish, hsig, hc, hn, he, List.append_nil]
      rfl
    · replace he : SignalingSession.registration _ s.st _ = _ := he
      refine .single_of_eq (@Signaling.Step.upgraded _ _ _ ⟨s.channelWires⟩ hs hl hrole) ?_
      simp only [Sys.signaling, finish, register, hsig, hc, hn, he]
      rfl
  | answered _ hs hl hrole hr =>
    rcases registerChannel_signaling hr with ⟨hsig, ⟨hc, hn, he⟩ | ⟨key, rfl, hn, hc, he⟩⟩
    · refine .single_of_eq (.fail hs hl) ?_
      simp only [Sys.signaling, endSignaling, finish, hsig, hc, hn, he, List.append_nil]
    · refine .single_of_eq (@Signaling.Step.answered _ _ _ ⟨s.channelWires⟩ hs hl hrole) ?_
      simp only [Sys.signaling, endSignaling, finish, register, hsig, hc, hn, he]

/-- A step of the endpoint is a run of the machine. -/
theorem Step.signaling {s s' : Sys} (h : Step s s') : machine.Leads s.signaling s'.signaling := by
  rcases h.cases with h | h | h | h
  · exact h.signaling
  · exact .of_eq h.signaling
  · exact h.signaling
  · rw [h.frame]
    exact .refl

/-- The sessions of the endpoint follow the machine. -/
theorem signaling_simulation : Simulation endpoint machine Sys.signaling where
  init := by
    rintro _ ⟨config, webrtc, now, st, key, hr, rfl⟩
    obtain ⟨-, -, rfl⟩ := registerRelay_eq hr
    rfl
  step := fun _ _ _ _ hst => Step.signaling hst

/-! ## Where a dead channel falls back to -/

/-- The channel that a session registered falls back to the relay the session
    signaled through. -/
structure FallsBack (s : Sys) (reg : Registration) : Prop where
  /-- The session published its signals through the relay it was started with. -/
  published : ∀ key ∈ reg.session.published, key = reg.session.via
  /-- The entry of the channel names that relay, and is the one in the table. -/
  fallback : reg.entry.fallbackRelay = reg.session.via
  entry : ∀ entry, s.st.channels.lookup reg.id = some entry → entry = reg.entry
  /-- When the channel is retired and its peer is routed over it, the route becomes
      that relay. -/
  retired : ∀ addr, s.st.peerToAddr.lookup reg.session.peer = some addr →
    s.st.routes.lookup addr = some (.channel reg.id) →
    (s.st.retireChannel reg.id).routes.lookup addr = some (.relay reg.session.via)

/-- A channel that a peer is routed over gives the route back to its fallback. -/
theorem State.retireChannel_route {s : State} {id : ChannelId} {entry : ChannelEntry}
    {addr : SocketAddr} (hc : s.channels.lookup id = some entry)
    (hp : s.peerToAddr.lookup entry.peer = some addr)
    (hr : s.routes.lookup addr = some (.channel id)) :
    (s.retireChannel id).routes.lookup addr = some (.relay entry.fallbackRelay) := by
  rw [retireChannel, hc]
  dsimp only
  rw [hp]
  dsimp only
  rw [if_pos hr]
  exact AList.lookup_insert _

/-- A channel falls back to the relay it was signaled through exactly if an
    answerer registered it, or it was signaled through the home relay. -/
theorem fallsBack_iff {s : Sys} (hs : endpoint.Reachable s) {reg : Registration}
    (hreg : reg ∈ s.registrations) :
    FallsBack s reg ↔ reg.session.role = .answerer ∨ reg.session.via = homeRelay := by
  have hi := Signaling.Inv.reachable (signaling_simulation.reachable hs)
  have hrouting := Routing.Inv.reachable (routing_simulation.reachable hs)
  obtain ⟨hpub, hpeer, hfall⟩ := hi.registered reg hreg
  constructor
  · rintro ⟨-, hvia, -, -⟩
    cases hrole : reg.session.role with
    | answerer => exact .inl rfl
    | offerer =>
      rw [hrole] at hfall
      exact .inr (hvia.symm.trans hfall)
  · intro hcond
    have hvia : reg.entry.fallbackRelay = reg.session.via := by
      rw [hfall]
      rcases hcond with hrole | hvia
      · rw [hrole]
      · cases reg.session.role
        · exact hvia.symm
        · rfl
    refine ⟨hpub, hvia, fun entry => hi.channel reg hreg entry, fun addr hp hr => ?_⟩
    -- A peer routed over the channel finds it in the table, as it was registered.
    obtain ⟨entry, hc, -⟩ := hrouting.channel addr reg.id hr
    obtain rfl := hi.channel reg hreg entry hc
    rw [← hpeer] at hp
    rw [← hvia]
    exact retireChannel_route hc hp hr

/-- A peer signals through the home relay, and its answerer registers a channel. -/
theorem fallsBack_answerer : ∃ (s : Sys) (reg : Registration), reg ∈ s.registrations ∧
    reg.session.role = .answerer ∧ FallsBack s reg := by
  have hidle := idle_reachable (.relayOnly "https://home.example") true 0
  have hsignal := hidle.step (.pump (@PumpStep.relaySignal _ homeRelay ⟨0⟩ (Vector.replicate 32 7)
    [signalPrefix] rfl rfl List.mem_cons_self rfl))
  have hdrain := hsignal.step (.pump (@PumpStep.drain _ (fun _ => ⟨[], false⟩) _ _ rfl rfl))
  have hselect := select_reachable hdrain rfl rfl rfl rfl rfl rfl
  have hrest := hselect.step (.pump (.suspend rfl rfl))
  have hanswered := hrest.step (.session (@SessionStep.answered _ 0 _ _ _ rfl rfl rfl rfl rfl))
  exact ⟨_, _, List.mem_cons_self, rfl, (fallsBack_iff hanswered List.mem_cons_self).2 (.inl rfl)⟩

/-- A `connect` with a hint for a foreign relay, whose upgrade registers a channel
    that was signaled through that relay. The channel falls back to the home
    relay. -/
theorem not_fallsBack_offerer : ¬∀ s, endpoint.Reachable s → ∀ reg ∈ s.registrations,
    FallsBack s reg := by
  intro hclaim
  have hidle := idle_reachable (.relayOnly "https://home.example") true 0
  have hcall := hidle.step (.connect (@ConnectStep.call _ 0
    ⟨List.replicate 32 7, [.webrtc "https://other.example"]⟩ (Vector.replicate 32 7) rfl rfl rfl))
  have hskip := hcall.step (.connect (@ConnectStep.skip _ 0 _ .dial rfl rfl rfl rfl))
  have hclaimed := hskip.step (.connect (@ConnectStep.claimed _ 0 _ (.upgrade homeRelay)
    "https://other.example" _ rfl rfl rfl rfl rfl))
  have hopened := hclaimed.step (.connect (@ConnectStep.opened _ 0 _ (.upgrade homeRelay)
    "https://other.example" _ 1 rfl rfl rfl rfl rfl))
  have hdialed := hopened.step (.connect (@ConnectStep.dialed _ 0 _ homeRelay (some 1) _ _ _ 0 0
    rfl rfl rfl rfl rfl rfl))
  have hkicked := hdialed.step (.pump (.kicked rfl rfl rfl))
  have hdrain := hkicked.step (.pump (@PumpStep.drain _ (fun _ => ⟨[], false⟩) _ _ rfl rfl))
  have hflush := ((hdrain.step (.pump (.relayEmpty rfl rfl))).step
    (.pump (.udpEmpty rfl rfl))).step (.pump (.channelEmpty rfl rfl))
  have hselect := (hflush.step (.pump (.arm rfl))).step (.pump (.stay rfl rfl))
  have hrest := hselect.step (.pump (.suspend rfl rfl))
  have hbegin := hrest.step (.session (@SessionStep.begin _ 0 _ _ rfl rfl rfl rfl))
  have hpublish := hbegin.step (.session (@SessionStep.publish _ 0 _ 1 [] rfl rfl rfl rfl))
  have hupgraded := hpublish.step (.session (@SessionStep.upgraded _ 0 _ _ _ rfl rfl rfl rfl rfl))
  have hfall := (hclaim _ hupgraded _ List.mem_cons_self).fallback
  exact absurd hfall (by decide)

end IrohEndpoint
