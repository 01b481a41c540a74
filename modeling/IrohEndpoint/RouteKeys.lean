import IrohEndpoint.RelayPool
import IrohEndpoint.Sessions

/-!
# The relays that routes are pointed at

A route is pointed at a relay by four pieces of code, `addr_for_peer`, `connect`,
`register_channel` and `retire_channel` (`Sys.Writes`), and nothing else moves one
(`Step.writes`). None of them looks whether the relay is in the pool. They use keys that
were obtained earlier (`Sys.HoldsKey`): a `connect` call resolves the key to dial through,
and then may open another relay; an answerer and its channel keep the key of the relay
that the peer's first signal came through, as long as they live.

In runs in which no relay dies while its key is held, and a receive that outlives its
relay brings no new peer and no new session (`Sys.Lasting`), a route is never pointed
at a relay that has left the pool.
-/

namespace IrohEndpoint

open Transition State

/-! ## The keys that are held -/

/-- The pool key to dial through that is known while a key is resolved. -/
def Target.dialKey : Target → Option RelayKey
  | .dial => none
  | .upgrade dialKey => some dialKey

/-- The pool key that a call has resolved, to dial through. -/
def ConnectPhase.dialKey : ConnectPhase → Option RelayKey
  | .resolve target | .opening target | .waiting target _ => target.dialKey
  | .dialing dialKey _ => some dialKey
  | .parked _ _ | .done _ => none

/-- A call, an answerer or a channel holds the pool key `key`. -/
inductive Sys.HoldsKey (s : Sys) (key : RelayKey) : Prop
  | call {tid : TaskId} {task : ConnectTask} :
      s.connects.lookup tid = some task → task.phase.dialKey = some key → HoldsKey s key
  | session {tid : TaskId} {session : SignalingSession} :
      s.sessions.lookup tid = some session → session.role = .answerer → session.via = key →
      HoldsKey s key
  | channel {id : ChannelId} {entry : ChannelEntry} :
      s.st.channels.lookup id = some entry → entry.fallbackRelay = key → HoldsKey s key

/-- `key` is that of the home relay, or in the pool. -/
def Sys.Pooled (s : Sys) (key : RelayKey) : Prop :=
  key = homeRelay ∨ (s.st.relayPool.lookup key).isSome

/-- A step in which no relay dies while its key is held, and a receive that outlives its
    relay brings no new peer and no new session. -/
structure Sys.Lasting (s s' : Sys) : Prop where
  retired : ∀ key, s.Pooled key → ¬s'.Pooled key → ¬s.HoldsKey key
  delivers : ∀ key source, s.Delivers s' key source →
    s.Pooled key ∨ (s.st.peerToAddr.lookup source).isSome
  signals : ∀ key source payload, s.Signals s' key source payload →
    s.Pooled key ∨ (s.st.handleSignal key source payload).2 = false

/-! ## What is written to the routes -/

/-- The step from `s` to `s'` writes `routes[addr] := Relay(key)`. -/
inductive Sys.Writes (s s' : Sys) : SocketAddr → RelayKey → Prop
  /-- `addr_for_peer`, for a datagram from a relay, -/
  | datagram {key : RelayKey} {source : EndpointId} {addr : SocketAddr} :
      s.Delivers s' key source → s.st.peerToAddr.lookup source = none →
      s'.st.peerToAddr.lookup source = some addr → Writes s s' addr key
  /-- or from a channel; -/
  | channelDatagram {id : ChannelId} {entry : ChannelEntry} {addr : SocketAddr} :
      s.st.channels.lookup id = some entry → s.st.peerToAddr.lookup entry.peer = none →
      s'.st.peerToAddr.lookup entry.peer = some addr → Writes s s' addr entry.fallbackRelay
  /-- `connect`, for a standin that is new or routed to a relay; -/
  | dial {tid : TaskId} {task : ConnectTask} {dialKey : RelayKey} {upgradeKey : Option RelayKey}
      {st : State} {addr : SocketAddr} :
      s.connects.lookup tid = some task → task.phase = .dialing dialKey upgradeKey →
      task.plan.direct = none → s.st.dialAddr task.peer none dialKey = .ok (st, addr) →
      st.routes.lookup addr = some (.relay dialKey) → s'.st.routes = st.routes →
      Writes s s' addr dialKey
  /-- `register_channel`, for a new standin, whose route then moves on to the channel; -/
  | register {tid : TaskId} {session : SignalingSession} {addr : SocketAddr} :
      s.sessions.lookup tid = some session → session.live = true →
      s.st.peerToAddr.lookup session.peer = none →
      s'.st.peerToAddr.lookup session.peer = some addr →
      Writes s s' addr (((session.registers s.st).signalingRelay session.peer).getD homeRelay)
  /-- `retire_channel`, for a standin that is routed over the channel. -/
  | retire {id : ChannelId} {entry : ChannelEntry} {addr : SocketAddr} :
      s.st.channels.lookup id = some entry → s.st.peerToAddr.lookup entry.peer = some addr →
      s.st.routes.lookup addr = some (.channel id) → s'.st.channels.lookup id = none →
      Writes s s' addr entry.fallbackRelay

/-- A standin that is assigned is new, and routed to the relay of its peer. -/
theorem State.addrForPeer_writes {s s' : State} {peer : EndpointId} {via key : RelayKey}
    {addr addr' : SocketAddr} (h : s.addrForPeer peer via = .ok (s', addr'))
    (hr : s'.routes.lookup addr = some (.relay key)) :
    s.routes.lookup addr = some (.relay key) ∨
      (key = via ∧ addr = addr' ∧ s.peerToAddr.lookup peer = none) := by
  rcases addrForPeer_cases h with ⟨rfl, -⟩ | ⟨hp, -, -, rfl⟩
  · exact .inl hr
  · rcases Table.lookup_insert_some.1 hr with ⟨haddr, hkey⟩ | ⟨-, hr⟩
    · cases hkey
      exact .inr ⟨rfl, haddr, hp⟩
    · exact .inl hr

/-- A dial writes the key it goes through, for a standin. -/
theorem State.dialAddr_writes {s s' : State} {peer : EndpointId} {direct : Option SocketAddr}
    {dialKey key : RelayKey} {addr remote : SocketAddr}
    (h : s.dialAddr peer direct dialKey = .ok (s', remote))
    (hr : s'.routes.lookup addr = some (.relay key)) :
    s.routes.lookup addr = some (.relay key) ∨ (direct = none ∧ key = dialKey ∧ addr = remote) := by
  cases direct with
  -- A direct dial goes to the UDP address, and needs no standin.
  | some real =>
    cases h
    exact .inl hr
  | none =>
    rcases dialAddr_cases h with rfl | ⟨s₁, h₁, rfl | ⟨_, -, rfl⟩⟩
    · exact .inl hr
    · exact (addrForPeer_writes h₁ hr).imp_right fun h => ⟨rfl, h.1, h.2.1⟩
    · rcases Table.lookup_insert_some.1 hr with ⟨rfl, hkey⟩ | ⟨-, hr⟩
      · cases hkey
        exact .inr ⟨rfl, rfl, rfl⟩
      · exact (addrForPeer_writes h₁ hr).imp_right fun h => ⟨rfl, h.1, h.2.1⟩

/-- A retired channel gives the route of its peer back. -/
theorem State.retireChannel_writes {s : State} {id : ChannelId} {addr : SocketAddr} {key : RelayKey}
    (hr : (s.retireChannel id).routes.lookup addr = some (.relay key)) :
    s.routes.lookup addr = some (.relay key) ∨ ∃ entry, s.channels.lookup id = some entry ∧
      s.peerToAddr.lookup entry.peer = some addr ∧ s.routes.lookup addr = some (.channel id) ∧
      key = entry.fallbackRelay := by
  rw [retireChannel] at hr
  split at hr <;> rename_i hc
  · exact .inl hr
  · dsimp only at hr
    split at hr <;> rename_i hp
    · exact .inl hr
    · split at hr <;> rename_i hroute
      · rcases Table.lookup_insert_some.1 hr with ⟨rfl, hkey⟩ | ⟨-, hr⟩
        · cases hkey
          exact .inr ⟨_, hc, hp, hroute, rfl⟩
        · exact .inl hr
      · exact .inl hr

/-- A channel is registered: the routes of the others stay, and its peer's is the
    channel. -/
theorem State.registerChannel_writes {s s' : State} {peer : EndpointId} {wire : ChannelWire}
    {result : Except Error Unit} {addr : SocketAddr} {key : RelayKey}
    (h : s.registerChannel peer wire = .ok (s', result))
    (hr : s'.routes.lookup addr = some (.relay key)) :
    s.routes.lookup addr = some (.relay key) := by
  rcases registerChannel_cases h with ⟨-, rfl⟩ | ⟨-, -, s₁, addr₁, h₁, rfl⟩
  · exact hr
  · rcases Table.lookup_insert_some.1 hr with ⟨-, hkey⟩ | ⟨hne, hr⟩
    · cases hkey
    · exact (addrForPeer_writes h₁ hr).resolve_right fun h => hne h.2.1

/-- A route to a relay that a step makes was written by it. -/
theorem Step.writes {s s' : Sys} (h : Step s s') {addr : SocketAddr} {key : RelayKey}
    (hr : s'.st.routes.lookup addr = some (.relay key)) :
    s.st.routes.lookup addr = some (.relay key) ∨ s.Writes s' addr key := by
  have hroutes : ∀ {st : State}, s'.st.routing = st.routing →
      st.routes.lookup addr = some (.relay key) := by
    intro st hst
    have heq : s'.st.routes = st.routes := congrArg Routing.routes hst
    rwa [heq] at hr
  have hpeer : ∀ {st st₀ : State} {peer via}, s'.st.routing = st.routing →
      st₀.addrForPeer peer via = .ok (st, addr) → s'.st.peerToAddr.lookup peer = some addr := by
    intro st st₀ peer via hst h₁
    have heq : s'.st.peerToAddr = st.peerToAddr := congrArg Routing.peerToAddr hst
    rw [heq]
    exact addrForPeer_lookup h₁
  rcases h.reroutes with hst | ⟨hd, h₁, hst⟩ | ⟨hc, h₁, hst⟩ | ⟨hl, hp, ha, hst⟩ |
    ⟨-, -, hreg, hst⟩ | hst
  · exact .inl (hroutes hst)
  · refine (addrForPeer_writes h₁ (hroutes hst)).imp_right ?_
    rintro ⟨rfl, rfl, hnew⟩
    exact .datagram hd hnew (hpeer hst h₁)
  · refine (addrForPeer_writes h₁ (hroutes hst)).imp_right ?_
    rintro ⟨rfl, rfl, hnew⟩
    exact .channelDatagram hc hnew (hpeer hst h₁)
  · refine (dialAddr_writes ha (hroutes hst)).imp_right ?_
    rintro ⟨hdirect, rfl, rfl⟩
    rw [hdirect] at ha
    exact .dial hl hp hdirect ha (hroutes hst) (congrArg Routing.routes hst)
  · -- The route of the channel's peer leads to the channel now.
    have hold := registerChannel_writes hreg (hroutes hst)
    rw [SignalingSession.registers_routes] at hold
    exact .inl hold
  · rw [hst] at hr
    refine (retireChannel_writes hr).imp_right ?_
    rintro ⟨entry, hc, hp, hroute, rfl⟩
    refine .retire hc hp hroute ?_
    rw [hst, retireChannel_frame]
    exact AList.lookup_erase _ _

/-! ## Who gets hold of a key -/

/-- The call `tid` moves to another phase: if it then knows the key to dial through, it knew
    it, it is the home relay's, or the call has looked for it. -/
def Sys.Resolves (s s' : Sys) (tid : TaskId) (phase : ConnectPhase) : Prop :=
  ∀ key, phase.dialKey = some key →
    s.HoldsKey key ∨ key = homeRelay ∨ ∃ url, s.Returns s' tid url key

section Resolves

variable {s s' : Sys} {tid : TaskId} {task : ConnectTask} {target : Target} {phase : ConnectPhase}

/-- A call that knows no key. -/
theorem Sys.Resolves.of_none (hphase : phase.dialKey = none) : s.Resolves s' tid phase :=
  fun _ hk => nomatch hphase.symm.trans hk

/-- A call that knows the key it knew. -/
theorem Sys.Resolves.of_eq (hl : s.connects.lookup tid = some task)
    (hphase : phase.dialKey = task.phase.dialKey) : s.Resolves s' tid phase :=
  fun _ hk => .inl (.call hl (hphase.symm.trans hk))

/-- A call that needs no relay for its target dials through the home relay. -/
theorem Sys.Resolves.skip (hl : s.connects.lookup tid = some task)
    (hp : task.phase = .resolve target) : s.Resolves s' tid target.skip := by
  cases target with
  | dial =>
    rintro _ ⟨⟩
    exact .inr (.inl rfl)
  | upgrade dialKey => exact .of_eq hl (by rw [hp]; rfl)

/-- A call that gets the key it looks for. -/
theorem Sys.Resolves.next {url : String} {key : RelayKey} (hseeks : s.Seeks tid task target url)
    (hc : s'.connects = s.connects.insert tid { task with phase := target.next key }) :
    s.Resolves s' tid (target.next key) := by
  cases target with
  | dial =>
    rintro _ ⟨⟩
    refine .inr (.inr ⟨url, task, .dial, { task with phase := Target.dial.next key }, hseeks, ?_, rfl⟩)
    rw [hc]
    exact AList.lookup_insert _
  | upgrade dialKey =>
    refine .of_eq hseeks.1 ?_
    obtain ⟨-, -, hp | hp | ⟨_, hp⟩⟩ := hseeks <;> rw [hp] <;> rfl

end Resolves

/-- What a step of a `connect` call does to the keys that the calls know. -/
theorem ConnectStep.resolves {s s' : Sys} (h : ConnectStep s s') :
    s'.connects = s.connects ∨ (∃ tid, s'.connects = s.connects.erase tid) ∨
      ∃ tid task, s'.connects = s.connects.insert tid task ∧ s.Resolves s' tid task.phase := by
  cases h with
  | refused => exact .inl rfl
  | cancelOpening | cancelWaiting | cancelParked => exact .inr (.inl ⟨_, rfl⟩)
  | call => exact .inr (.inr ⟨_, _, rfl, .of_none rfl⟩)
  | skip _ hl hp => exact .inr (.inr ⟨_, _, rfl, .skip hl hp⟩)
  | found _ hl hp hurl => exact .inr (.inr ⟨_, _, rfl, .next ⟨hl, hurl, .inl hp⟩ rfl⟩)
  | opened _ hl hp hurl => exact .inr (.inr ⟨_, _, rfl, .next ⟨hl, hurl, .inr (.inl hp)⟩ rfl⟩)
  | woken _ hl hp hurl =>
    exact .inr (.inr ⟨_, _, rfl, .next ⟨hl, hurl, .inr (.inr ⟨_, hp⟩)⟩ rfl⟩)
  | claimed _ hl hp | shared _ hl hp =>
    exact .inr (.inr ⟨_, _, rfl, .of_eq hl (by rw [hp]; rfl)⟩)
  | closed | openFailed | wokenFailed | tlsFailed | dialClosed | dialFailed | dialed | connected
  | failed => exact .inr (.inr ⟨_, _, rfl, .of_none rfl⟩)

/-- A channel is registered by a session. -/
theorem Step.channel {s s' : Sys} (h : Step s s') {id : ChannelId} {entry : ChannelEntry}
    (hc : s'.st.channels.lookup id = some entry) :
    s.st.channels.lookup id = some entry ∨ ∃ tid session, s.sessions.lookup tid = some session ∧
      session.live = true ∧ entry.fallbackRelay =
        ((session.registers s.st).signalingRelay session.peer).getD homeRelay := by
  have hst : ∀ {st : State}, s'.st.routing = st.routing → st.channels.lookup id = some entry := by
    intro st hst
    have heq : s'.st.channels = st.channels := congrArg Routing.channels hst
    rwa [heq] at hc
  rcases h.reroutes with h | ⟨-, h₁, h⟩ | ⟨-, h₁, h⟩ | ⟨-, -, ha, h⟩ | ⟨hl, hlive, hreg, h⟩ | h
  · exact .inl (hst h)
  · have hold := hst h
    rw [addrForPeer_frame h₁] at hold
    exact .inl hold
  · have hold := hst h
    rw [addrForPeer_frame h₁] at hold
    exact .inl hold
  · have hold := hst h
    rw [dialAddr_frame ha] at hold
    exact .inl hold
  · have hnew := hst h
    rcases registerChannel_cases hreg with ⟨-, rfl⟩ | ⟨-, -, s₁, addr, h₁, rfl⟩
    · exact .inl (SignalingSession.registers_channels s.st ▸ hnew)
    · rw [addrForPeer_frame h₁] at hnew
      rcases Table.lookup_insert_some.1 hnew with ⟨-, rfl⟩ | ⟨-, hold⟩
      · exact .inr ⟨_, _, hl, hlive, rfl⟩
      · exact .inl (SignalingSession.registers_channels s.st ▸ hold)
  · rw [h, retireChannel_frame] at hc
    exact .inl (Table.lookup_erase_some.1 hc).2

/-- The relay that the channel of a session falls back to is held by the session, or the
    home relay. -/
theorem fallback_held {s : Sys} (hs : endpoint.Reachable s) {tid : TaskId}
    {session : SignalingSession} (hl : s.sessions.lookup tid = some session)
    (hlive : session.live = true) {key : RelayKey}
    (hkey : key = ((session.registers s.st).signalingRelay session.peer).getD homeRelay) :
    s.HoldsKey key ∨ key = homeRelay := by
  have hi := Signaling.Inv.reachable (signaling_simulation.reachable hs)
  cases hrole : session.role with
  | offerer =>
    -- The offerer has freed its slot already, so the channel falls back to the home relay.
    rw [SignalingSession.registers_offerer _ hrole, signalingRelay, endSignaling,
      AList.lookup_erase] at hkey
    exact .inr hkey
  | answerer =>
    have hslot : s.st.signaling.lookup session.peer = some session.via := hi.slot tid session hl hlive
    rw [SignalingSession.registers_answerer _ hrole, signalingRelay, hslot] at hkey
    exact .inl (.session hl hrole hkey.symm)

/-- A URL has the key of a relay in the pool. -/
theorem pooled_of_url {s : Sys} (hs : endpoint.Reachable s) {url : String} {key : RelayKey}
    (hk : s.st.relayKeys.lookup url = some key) : s.Pooled key := by
  have hi := RelayPool.Inv.reachable (relays_simulation.reachable hs)
  by_cases hhome : key = homeRelay
  · exact .inl hhome
  · obtain ⟨conn, hc⟩ := hi.pooled url key hk hhome
    exact .inr (Option.isSome_iff_exists.2 ⟨conn, hc⟩)

/-- A signal leaves the pool alone. -/
theorem Sys.Signals.pooled {s s' : Sys} {key key' : RelayKey} {source : EndpointId}
    {payload : Bytes} (h : s.Signals s' key source payload) (hk : s.Pooled key') :
    s'.Pooled key' := by
  obtain ⟨conn, -, rfl⟩ := h
  rw [Sys.handleSignal_frame]
  exact hk

/-- A datagram leaves the pool alone. -/
theorem Sys.Delivers.pooled {s s' : Sys} {key key' : RelayKey} {source : EndpointId}
    (h : s.Delivers s' key source) (hk : s.Pooled key') : s'.Pooled key' := by
  obtain ⟨conn, event, st, -, hd, rfl⟩ := h
  rw [handleRelayDatagram_frame hd]
  exact hk

/-- A step gets hold of a key: that of a relay that is in the pool. -/
theorem Step.holds {s s' : Sys} (hs : endpoint.Reachable s) (h : Step s s') (hok : s.Lasting s')
    {key : RelayKey} (hk : s'.HoldsKey key) : s.HoldsKey key ∨ s'.Pooled key := by
  cases hk with
  | call hl hk =>
    rcases h.calls with hc | hc
    · rcases hc.resolves with hc | ⟨tid₀, hc⟩ | ⟨tid₀, task₀, hc, hresolves⟩
      · exact .inl (.call (hc ▸ hl) hk)
      · rw [hc] at hl
        exact .inl (.call (Table.lookup_erase_some.1 hl).2 hk)
      · rw [hc] at hl
        rcases Table.lookup_insert_some.1 hl with ⟨rfl, rfl⟩ | ⟨-, hl⟩
        · rcases hresolves key hk with hold | hhome | ⟨url, hr⟩
          · exact .inl hold
          · exact .inr (.inl hhome)
          · -- A key that a call gets is that of its URL.
            exact .inr (pooled_of_url (hs.step h) (h.returns hr))
        · exact .inl (.call hl hk)
    · exact .inl (.call (hc ▸ hl) hk)
  | session hl hrole hvia =>
    subst hvia
    rcases h.answerers hl hrole with ⟨_, old, hold, hrole', hvia⟩ | ⟨source, payload, hsig, hspawn⟩
    · exact .inl (.session hold hrole' hvia)
    · refine (hok.signals _ source payload hsig).elim (fun hp => .inr (hsig.pooled hp)) fun hno => ?_
      cases hspawn.symm.trans hno
  | channel hc hkey =>
    rcases h.channel hc with hold | ⟨tid, session, hl, hlive, hfall⟩
    · exact .inl (.channel hold hkey)
    · exact (fallback_held hs hl hlive (hkey.symm.trans hfall)).imp_right .inl

/-- In the runs considered, the keys that are held are those of relays in the pool. -/
theorem holds_pooled {s : Sys} (hs : (endpoint.restrict Sys.Lasting).Reachable s) {key : RelayKey}
    (hk : s.HoldsKey key) : s.Pooled key := by
  revert key
  refine hs.invariant (P := fun s => ∀ {key}, s.HoldsKey key → s.Pooled key) ?_ ?_
  · rintro _ ⟨config, webrtc, now, st, key, hreg, rfl⟩ key' hk
    obtain ⟨-, -, rfl⟩ := registerRelay_eq hreg
    cases hk with
    | call hl => cases hl
    | session hl => cases hl
    | channel hl => cases hl
  · rintro s s' hr ⟨hst, hok⟩ hi key hk
    rcases hst.holds hr.of_restrict hok hk with hold | hp
    · -- The relay of a key that is held does not die.
      by_contra hdead
      exact hok.retired key (hi hold) hdead hold
    · exact hp

/-! ## The routes -/

/-- A route is only pointed at a relay that is in the pool. -/
structure RoutesPooled (s : Sys) : Prop where
  /-- When a route is written, its relay is in the pool. -/
  written : ∀ s', Step s s' → s.Lasting s' → ∀ addr key, s.Writes s' addr key → s.Pooled key
  /-- A route to a relay was there before, or was written. -/
  moved : ∀ s', Step s s' → ∀ addr key, s'.st.routes.lookup addr = some (.relay key) →
    s.st.routes.lookup addr = some (.relay key) ∨ s.Writes s' addr key
  /-- A route to a relay that is not in the pool was there before. -/
  retired : ∀ s', Step s s' → s.Lasting s' → ∀ addr key,
    s'.st.routes.lookup addr = some (.relay key) → ¬s'.Pooled key →
    s.st.routes.lookup addr = some (.relay key)

/-- A route is written with a key that is held, the home relay's, or that of the relay a
    datagram came through. -/
theorem Sys.Writes.cases {s s' : Sys} (hs : endpoint.Reachable s) {addr : SocketAddr}
    {key : RelayKey} (h : s.Writes s' addr key) :
    s.HoldsKey key ∨ key = homeRelay ∨
      ∃ source, s.Delivers s' key source ∧ s.st.peerToAddr.lookup source = none := by
  cases h with
  | datagram hd hnew => exact .inr (.inr ⟨_, hd, hnew⟩)
  | channelDatagram hc => exact .inl (.channel hc rfl)
  | dial hl hp => exact .inl (.call hl (by rw [hp]; rfl))
  | register hl hlive => exact (fallback_held hs hl hlive rfl).imp_right .inl
  | retire hc => exact .inl (.channel hc rfl)

/-- In every run in which no relay dies while its key is held, and a receive that outlives
    its relay brings no new peer and no new session, routes are only pointed at relays in
    the pool. -/
theorem routesPooled_reachable {s : Sys} (hs : (endpoint.restrict Sys.Lasting).Reachable s) :
    RoutesPooled s := by
  have hr := hs.of_restrict
  refine ⟨fun s' hst hok addr key hw => ?_, fun s' hst addr key => hst.writes,
    fun s' hst hok addr key hroute hdead => (hst.writes hroute).resolve_right fun hw => ?_⟩
  · rcases hw.cases hr with hk | hhome | ⟨source, hd, hnew⟩
    · exact holds_pooled hs hk
    · exact .inl hhome
    · exact (hok.delivers key source hd).resolve_right (by rw [hnew]; exact Bool.false_ne_true)
  · rcases hw.cases hr with hk | hhome | ⟨source, hd, hnew⟩
    · exact hok.retired key (holds_pooled hs hk) hdead hk
    · exact hdead (.inl hhome)
    · -- The datagram brings a new peer, so its relay is in the pool.
      have hp := (hok.delivers key source hd).resolve_right (by rw [hnew]; exact Bool.false_ne_true)
      exact hdead (hd.pooled hp)

/-- While the home relay is the only one, every step meets the condition. -/
theorem Sys.Lasting.of_home {s s' : Sys} (hpool : s.st.relayPool = AList.insert homeRelay ⟨0⟩ ∅)
    (hrecvs : s.pump.relayRecvs ⊆ [(homeRelay, ⟨0⟩)]) : s.Lasting s' := by
  have hrecv : ∀ {key conn}, (key, conn) ∈ s.pump.relayRecvs → s.Pooled key := by
    intro key conn hmem
    cases List.mem_singleton.1 (hrecvs hmem)
    exact .inl rfl
  refine ⟨fun key hp hdead => ?_, ?_, ?_⟩
  · refine absurd (.inl ?_) hdead
    rcases hp with hhome | hp
    · exact hhome
    · obtain ⟨conn, hc⟩ := Option.isSome_iff_exists.1 hp
      rw [hpool] at hc
      exact (Table.lookup_singleton.1 hc).1
  · rintro key source ⟨conn, _, _, hmem, -⟩
    exact .inl (hrecv hmem)
  · rintro key source payload ⟨conn, hmem, -⟩
    exact .inl (hrecv hmem)

/-- A peer is heard for the first time, through the home relay. -/
theorem routesPooled_first_datagram : ∃ s : Sys,
    s.st.routes.lookup (docPrefixAddr 0x77 1) = some (.relay homeRelay) ∧ RoutesPooled s := by
  have hbound := bound_reachable Sys.Lasting (.relayOnly "https://home.example") false 0
  have hdrain := hbound.step ⟨.pump (@PumpStep.drain _ (fun _ => ⟨[], false⟩) _ _ rfl rfl),
    .of_home rfl (List.nil_subset _)⟩
  have hrelay := hdrain.step ⟨.pump (.relayEmpty rfl rfl), .of_home rfl (List.nil_subset _)⟩
  have hudp := hrelay.step ⟨.pump (.udpEmpty rfl rfl), .of_home rfl (List.nil_subset _)⟩
  have hchannel := hudp.step ⟨.pump (.channelEmpty rfl rfl), .of_home rfl (List.nil_subset _)⟩
  have harm := hchannel.step ⟨.pump (.arm rfl), .of_home rfl (List.nil_subset _)⟩
  have hselect := harm.step ⟨.pump (.stay rfl rfl), .of_home rfl (List.Subset.refl _)⟩
  have hdatagram := hselect.step ⟨.pump (@PumpStep.relayDatagram _ homeRelay ⟨0⟩
    (Vector.replicate 32 7) [] .ignored _ rfl rfl List.mem_cons_self rfl rfl),
    .of_home rfl (List.Subset.refl _)⟩
  exact ⟨_, rfl, routesPooled_reachable hdatagram⟩

/-- A call dials through a foreign relay that died while the call opened another one, to
    signal an upgrade through. -/
theorem not_routesPooled_dialed : ∃ s s' : Sys, endpoint.Reachable s ∧ Step s s' ∧
    s.st.routes.lookup (docPrefixAddr 0x77 1) = none ∧ ¬s.Pooled 1 ∧
    s.Writes s' (docPrefixAddr 0x77 1) 1 ∧
    s'.st.routes.lookup (docPrefixAddr 0x77 1) = some (.relay 1) := by
  have hidle := idle_reachable (.relayOnly "https://home.example") true 0
  have hcall := hidle.step (.connect (@ConnectStep.call _ 0
    ⟨List.replicate 32 7, [.relay "https://other.example", .webrtc "https://third.example"]⟩
    (Vector.replicate 32 7) rfl rfl rfl))
  have hclaimed := hcall.step (.connect (@ConnectStep.claimed _ 0 _ .dial
    "https://other.example" _ rfl rfl rfl rfl rfl))
  have hopened := hclaimed.step (.connect (@ConnectStep.opened _ 0 _ .dial
    "https://other.example" _ 1 rfl rfl rfl rfl rfl))
  have hclaimed' := hopened.step (.connect (@ConnectStep.claimed _ 0 _ (.upgrade 1)
    "https://third.example" _ rfl rfl rfl rfl rfl))
  -- The liveness sweep finds the first relay dead.
  have hdead := hclaimed'.step (.pump (@PumpStep.tick _
    (fun conn => if conn.id = 1 then .dead else .healthy) none rfl rfl))
  have hdrain := hdead.step (.pump (@PumpStep.drain _ (fun _ => ⟨[], false⟩) _ _ rfl rfl))
  have hselect := select_reachable hdrain rfl rfl rfl rfl rfl rfl
  have hkicked := hselect.step (.pump (.kicked rfl rfl rfl))
  have hdrain' := hkicked.step (.pump (@PumpStep.drain _ (fun _ => ⟨[], false⟩) _ _ rfl rfl))
  have hselect' := select_reachable hdrain' rfl rfl rfl rfl rfl rfl
  have hrest := hselect'.step (.pump (.suspend rfl rfl))
  have hopened' := hrest.step (.connect (@ConnectStep.opened _ 0 _ (.upgrade 1)
    "https://third.example" _ 2 rfl rfl rfl rfl rfl))
  refine ⟨_, _, hopened', .connect (@ConnectStep.dialed _ 0 _ 1 (some 2) _ _ _ 0 0
    rfl rfl rfl rfl rfl rfl), rfl, ?_,
    @Sys.Writes.dial _ _ 0 _ 1 (some 2) _ _ rfl rfl rfl rfl rfl rfl, rfl⟩
  rintro (h | h) <;> cases h

end IrohEndpoint
