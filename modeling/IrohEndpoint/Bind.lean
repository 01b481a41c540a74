import IrohEndpoint.RelayUrl
import IrohEndpoint.Sessions
import IrohEndpoint.Traffic

/-!
# What an endpoint is granted

An endpoint is configured through its options, which begin with nothing granted, and then bound
(`OptionsState.bind`): its home relay is dialed, and a UDP socket bound if the options name an
address for it. What the host answers is a parameter.

In every run of a bound endpoint, the options decide which wires it has (`bind_grants`):

* its home relay is the one that was named last;
* without an address for the socket, it receives nothing over UDP, sends nothing over it, and
  dials nobody directly;
* unless `webrtc` was last enabled, it starts and answers no signaling session, opens no channel,
  and routes no peer over one, whatever its peers signal to it.
-/

namespace IrohEndpoint

open Transition State

/-! ## Options -/

/-- The options of an endpoint, with the identity that they were made for. -/
structure OptionsState where
  identity : EndpointId
  alpns : List Bytes
  relayUrl : Option String
  udpBindAddr : Option String
  webrtc : Bool

/-- A call of the options. -/
inductive OptionsCall
  | addAlpn (alpn : Bytes)
  | relayUrl (url : String)
  | udpBindAddr (addr : String)
  | webrtc (enabled : Bool)
  deriving DecidableEq

namespace OptionsState

/-- Options that grant nothing. -/
def new (identity : EndpointId) : OptionsState := ⟨identity, [], none, none, false⟩

/-- The options after a call. -/
def call (o : OptionsState) : OptionsCall → OptionsState
  | .addAlpn alpn => { o with alpns := o.alpns ++ [alpn] }
  | .relayUrl url => { o with relayUrl := some url }
  | .udpBindAddr addr => { o with udpBindAddr := some addr }
  | .webrtc enabled => { o with webrtc := enabled }

/-- The options after some calls. -/
def after (identity : EndpointId) (calls : List OptionsCall) : OptionsState :=
  calls.foldl call (new identity)

end OptionsState

/-! ## The UDP socket -/

/-- An error code of a socket: that there is no UDP, or another one by its `Debug` text. -/
inductive ErrorCode
  | notSupported
  | other (debug : String)
  deriving DecidableEq

/-- The address family of a socket. -/
inductive IpAddressFamily
  | ipv4
  | ipv6
  deriving DecidableEq

/-- A socket address of the host. -/
inductive IpSocketAddress
  | ipv4 (port : UInt16) (address : Vector UInt8 4)
  | ipv6 (port : UInt16) (flowInfo : UInt32) (address : Vector UInt16 8) (scopeId : UInt32)
  deriving DecidableEq

/-- An address for the host, without its flow information and its scope. -/
def toWasi : SocketAddr → IpSocketAddress
  | .v4 ip port => .ipv4 port ip
  | .v6 ip port _ _ => .ipv6 port 0 ip 0

/-- An address of the host, without its flow information and its scope. -/
def fromWasi : IpSocketAddress → SocketAddr
  | .ipv4 port address => .v4 address port
  | .ipv6 port _ address _ => .v6 address port 0 0

/-- A bound UDP socket. -/
structure UdpWire where
  localAddr : SocketAddr

/-- What the host answers to those who bind a socket. -/
structure SocketHost where
  /-- `str::parse` for socket addresses, with the text of its error. -/
  parse : String → Except String SocketAddr
  create : IpAddressFamily → Except ErrorCode Unit
  bind : IpSocketAddress → Except ErrorCode Unit
  getLocalAddress : Except ErrorCode IpSocketAddress

/-- A socket failure at bind time: no UDP is not supported, anything else rejects the
    arguments. -/
def bindError (what : String) : ErrorCode → Error
  | .notSupported => .notSupported "this deployment provides no UDP socket"
  | .other debug => .invalidArgument (what ++ ": " ++ debug)

/-- Create a socket and bind it. -/
def UdpWire.bind (host : SocketHost) (unprintable : Char → Bool) (bindAddr : String) :
    Except Error UdpWire := do
  let addr ← (host.parse bindAddr).mapError fun detail => .invalidArgument
    ("udp bind address " ++ debugString unprintable bindAddr ++ ": " ++ detail)
  let family := match addr with
    | .v4 _ _ => IpAddressFamily.ipv4
    | .v6 _ _ _ _ => .ipv6
  (host.create family).mapError (bindError "udp create")
  (host.bind (toWasi addr)).mapError (bindError "udp bind")
  let localAddr ← host.getLocalAddress.mapError (bindError "udp local address")
  return ⟨fromWasi localAddr⟩

/-! ## Binding -/

/-- What the host answers to `bind`. -/
structure BindHost extends SocketHost where
  dialRelay : String → Except DialError Unit
  /-- The random bytes of the two keys. -/
  resetKey : Except String Unit
  tokenMaster : Except String Unit
  /-- The TLS configuration of the server, and that of QUIC. -/
  serverTls : EndpointId → List Bytes → Except String Unit
  serverQuicTls : Except String Unit

/-- A bound endpoint, and its socket. -/
structure EndpointRes where
  identity : EndpointId
  udp : Option UdpWire
  sys : Sys

/-- The address of the socket. -/
def EndpointRes.directAddr (e : EndpointRes) : Option SocketAddr := e.udp.map UdpWire.localAddr

/-- How `bind` reports a failed dial of the home relay. -/
def DialError.atBind : DialError → Error
  | timedOut => .timedOut "relay dial timed out"
  | failed detail => .connectFailed detail

/-- Bind an endpoint. -/
def OptionsState.bind (o : OptionsState) (host : BindHost) (unprintable : Char → Bool)
    (now : Instant) : Except Error EndpointRes := do
  let relayUrl ← o.relayUrl.elim
    (.error (.invalidArgument "bind requires a relay-url (the relay wire is the only path yet)"))
    .ok
  (if o.alpns.isEmpty then .error (.invalidArgument "bind requires at least one alpn")
    else .ok () : Except Error Unit)
  (host.dialRelay relayUrl).mapError DialError.atBind
  host.resetKey.mapError .other
  host.tokenMaster.mapError .other
  (host.serverTls o.identity o.alpns).mapError .other
  host.serverQuicTls.mapError fun detail => .other ("server quic config: " ++ detail)
  let udp ← o.udpBindAddr.mapM (UdpWire.bind host.toSocketHost unprintable)
  let config : Config :=
    { homeUrl := relayUrl
      udp := udp.isSome
      parseSocketAddr := fun text => (host.parse text).toOption }
  return { identity := o.identity, udp, sys := .bound config now (.bound o.webrtc relayUrl) }

/-! ## Without channels -/

/-- No channel is open, or about to be: no session is running or requested, and no call has a
    hint to request one. -/
structure Sys.Unwired (s : Sys) : Prop where
  enabled : s.st.webrtcEnabled = false
  sessions : s.sessions = ∅
  upgrades : s.st.pendingUpgrades = []
  channels : s.st.channels = ∅
  newChannels : s.st.newChannels = []
  recvs : s.pump.channelRecvs = []
  hints : ∀ tid task, s.connects.lookup tid = some task → task.plan.webrtcHint = none
  dials : ∀ tid task key upgradeKey, s.connects.lookup tid = some task →
    task.phase = .dialing key upgradeKey → upgradeKey = none

/-- The sessions and the channels. -/
def Sys.wiring (s : Sys) : Bool × Table TaskId SignalingSession × List (EndpointId × RelayKey) ×
    Table ChannelId ChannelEntry × List (ChannelId × ChannelWire) ×
    List (ChannelId × ChannelWire) :=
  (s.st.webrtcEnabled, s.sessions, s.st.pendingUpgrades, s.st.channels, s.st.newChannels,
    s.pump.channelRecvs)

/-- An endpoint that was bound without WebRTC has no channels. -/
theorem Sys.bound_unwired (config : Config) (now : Instant) (url : String) :
    (Sys.bound config now (.bound false url)).Unwired :=
  ⟨rfl, rfl, rfl, rfl, rfl, rfl, nofun, nofun⟩

section Unwired

variable {s s' : Sys}

/-- The invariant is about the wiring, and the calls. -/
theorem Sys.Unwired.of_wiring (hi : s.Unwired) (hw : s'.wiring = s.wiring)
    (hc : s'.connects = s.connects) : s'.Unwired := by
  simp only [Sys.wiring, Prod.mk.injEq] at hw
  obtain ⟨henabled, hsessions, hupgrades, hchannels, hnew, hrecvs⟩ := hw
  exact ⟨henabled.trans hi.enabled, hsessions.trans hi.sessions, hupgrades.trans hi.upgrades,
    hchannels.trans hi.channels, hnew.trans hi.newChannels, hrecvs.trans hi.recvs,
    hc ▸ hi.hints, hc ▸ hi.dials⟩

/-- A failing relay changes no wiring. -/
theorem Sys.FailsRelays.wiring (h : s.FailsRelays s') : s'.wiring = s.wiring := by
  rw [FailsRelays] at h
  rw [h]
  rfl

/-- The pump wires nothing up: there is nothing to arm or to spawn, and a signal is ignored. -/
theorem PumpStep.wiring (h : PumpStep s s') (hi : s.Unwired) : s'.wiring = s.wiring := by
  cases h with
  | drain _ hd =>
    rw [(drain_polls hd).woken]
    rfl
  | relaySendFailed =>
    split
    · exact (s.failHome_fails _ _).wiring
    · rfl
  | arm => simp [Sys.wiring, hi.upgrades, hi.newChannels, hi.recvs]
  | relaySignal =>
    rw [Sys.handleSignal, handleSignal]
    simp only [Sys.takeRelayRecv, hi.enabled]
    rfl
  | relayDatagram _ _ _ _ hd =>
    rw [handleRelayDatagram_frame hd]
    rfl
  | relayFailed => exact (Sys.failReceive_fails _ _ _ _).wiring
  | udpReceived _ _ _ hd =>
    rw [handleDatagram_frame hd]
    rfl
  | channelDatagram _ _ hmem | channelText _ _ hmem | channelFailed _ _ hmem =>
    rw [hi.recvs] at hmem
    cases hmem
  | redialFailed =>
    rw [Sys.failRedial]
    split <;> rfl
  | tick => exact (Sys.sweep_fails _ _ _).wiring
  | closeRelays =>
    rw [foldl_closeRelay]
    rfl
  | closeWires =>
    rw [foldl_closeWire]
    rfl
  | settled => simp [Sys.wiring, Sys.goto, hi.recvs]
  | _ => rfl

/-- Without WebRTC enabled, a plan has no hint. -/
theorem DialPlan.select_hint (config : Config) (addrs : List TransportAddr) :
    (DialPlan.select config false addrs).webrtcHint = none := by
  refine List.foldlRecOn (motive := fun plan : DialPlan => plan.webrtcHint = none) addrs _ rfl ?_
  intro plan h addr _
  cases addr with
  | relay url | ip text =>
    rw [add]
    split <;> exact h
  | webrtc url | custom id data => exact h

/-- Without a socket, a plan has no address to dial directly. -/
theorem DialPlan.select_direct {config : Config} (hudp : config.udp = false) (webrtcEnabled : Bool)
    (addrs : List TransportAddr) : (DialPlan.select config webrtcEnabled addrs).direct = none := by
  refine List.foldlRecOn (motive := fun plan : DialPlan => plan.direct = none) addrs _ rfl ?_
  intro plan h addr _
  cases addr with
  | relay url | webrtc url =>
    rw [add]
    split <;> exact h
  | ip text =>
    rw [add, if_neg (by simp [hudp])]
    exact h
  | custom id data => exact h

/-- A call that resolves the pool key for an upgrade has a hint. -/
theorem Target.next_dialing {plan : DialPlan} {target : Target} {url : String}
    {key key' : RelayKey} {upgradeKey : Option RelayKey} (hurl : target.url plan = some url)
    (h : target.next key = .dialing key' upgradeKey) : plan.webrtcHint ≠ none := by
  cases target with
  | dial => cases h
  | upgrade dialKey =>
    rw [Target.url] at hurl
    split at hurl
    · cases hurl
    · rw [hurl]
      nofun

/-- Where a call comes from: it keeps its plan, and dials with an upgrade only if the plan has a
    hint; or it has just started, and its plan is selected. -/
def Sys.Traces (s : Sys) (tid : TaskId) (task' : ConnectTask) : Prop :=
  (∃ task, s.connects.lookup tid = some task ∧ task'.plan = task.plan ∧
    ∀ key upgradeKey, task'.phase = .dialing key upgradeKey →
      task.phase = .dialing key upgradeKey ∨ upgradeKey = none ∨ task.plan.webrtcHint ≠ none) ∨
  task'.phase = .resolve .dial ∧
    ∃ addrs, task'.plan = DialPlan.select s.config s.st.webrtcEnabled addrs

/-- Every call comes from one, or has just started. -/
theorem ConnectStep.traces (h : ConnectStep s s') {tid : TaskId} {task' : ConnectTask}
    (hl : s'.connects.lookup tid = some task') : s.Traces tid task' := by
  have hsame : s.connects.lookup tid = some task' → s.Traces tid task' :=
    fun hl => .inl ⟨task', hl, rfl, fun _ _ h => .inl h⟩
  have hmoves : ∀ {t : TaskId} {task : ConnectTask} {phase : ConnectPhase},
      s.connects.lookup t = some task →
      (s.connects.insert t { task with phase := phase }).lookup tid = some task' →
      (∀ key upgradeKey, phase = .dialing key upgradeKey →
        upgradeKey = none ∨ task.plan.webrtcHint ≠ none) → s.Traces tid task' := by
    intro t task phase ht hl hphase
    rcases Table.lookup_insert_some.1 hl with ⟨rfl, rfl⟩ | ⟨-, hl⟩
    · exact .inl ⟨task, ht, rfl, fun key upgradeKey h => .inr (hphase key upgradeKey h)⟩
    · exact hsame hl
  cases h with
  | refused => exact hsame hl
  | @call _ addr =>
    rcases Table.lookup_insert_some.1 hl with ⟨rfl, rfl⟩ | ⟨-, hl⟩
    · exact .inr ⟨rfl, addr.addrs, rfl⟩
    · exact hsame hl
  | @skip _ _ target _ ht =>
    refine hmoves ht hl fun key upgradeKey hphase => .inl ?_
    cases target with
    | dial => cases hphase
    | upgrade => exact (ConnectPhase.dialing.inj hphase).2.symm
  | found _ ht _ hurl | opened _ ht _ hurl | woken _ ht _ hurl =>
    exact hmoves ht hl fun _ _ hphase => .inr (Target.next_dialing hurl hphase)
  | closed _ ht | claimed _ ht | shared _ ht | openFailed _ ht | wokenFailed _ ht
  | tlsFailed _ ht | dialClosed _ ht | dialFailed _ ht | dialed _ ht | connected _ ht
  | failed _ ht => exact hmoves ht hl nofun
  | cancelOpening | cancelWaiting | cancelParked => exact hsame (Table.lookup_erase_some.1 hl).2

/-- A dial requests the upgrade of its peer, if there is a relay to signal it through. -/
theorem State.dialed_upgrades {s s' : State} {peer : EndpointId} {remote : SocketAddr}
    {handle : ConnectionHandle} {upgradeKey : Option RelayKey} {epoch : ℕ}
    (h : s.dialed peer remote handle upgradeKey = .ok (s', epoch)) :
    s'.pendingUpgrades =
      s.pendingUpgrades ++ (upgradeKey.map fun key => (peer, key)).toList := by
  obtain ⟨⟨s₁, epoch'⟩, h₁, h⟩ := Except.bind_eq_ok.1 h
  cases h
  obtain ⟨-, -, -, rfl⟩ := insertConn_eq h₁
  rfl

/-- A call wires nothing up: it requests no upgrade. -/
theorem ConnectStep.wiring (h : ConnectStep s s') (hi : s.Unwired) : s'.wiring = s.wiring := by
  suffices s'.st.pendingUpgrades = s.st.pendingUpgrades by
    simp only [Sys.wiring, this]
    rw [h.frame]
  cases h with
  | found _ _ _ _ he | closed _ _ _ _ he | claimed _ _ _ _ he | shared _ _ _ _ he =>
    rw [ensureRelay_frame he]
    rfl
  | opened _ _ _ _ hr =>
    obtain ⟨-, -, rfl⟩ := registerRelay_eq hr
    rfl
  | dialFailed _ _ _ _ ha =>
    rw [dialAddr_frame ha]
    rfl
  | dialed _ ht hphase _ ha hd =>
    have hupgrades := dialed_upgrades hd
    rw [hi.dials _ _ _ _ ht hphase, dialAddr_frame ha] at hupgrades
    exact hupgrades.trans (List.append_nil _)
  | failed | cancelParked =>
    rcases s.st.closeConnection_cases _ _ _ _ with ⟨h, -⟩ | ⟨_, -, -, -, h⟩ <;>
      rw [dropDialGuard, h] <;> rfl
  | _ => rfl

/-- No step opens a channel. -/
theorem Sys.Unwired.step (hi : s.Unwired) (h : Step s s') : s'.Unwired := by
  rcases h.cases with h | h | h | h
  · exact hi.of_wiring (h.wiring hi) h.handles.1
  · have hw := h.wiring hi
    have htraces : ∀ tid task, s'.connects.lookup tid = some task → s.Traces tid task :=
      fun _ _ => h.traces
    simp only [Sys.wiring, Prod.mk.injEq] at hw
    obtain ⟨henabled, hsessions, hupgrades, hchannels, hnew, hrecvs⟩ := hw
    refine ⟨henabled.trans hi.enabled, hsessions.trans hi.sessions, hupgrades.trans hi.upgrades,
      hchannels.trans hi.channels, hnew.trans hi.newChannels, hrecvs.trans hi.recvs,
      fun tid task hl => ?_, fun tid task key upgradeKey hl hphase => ?_⟩
    · rcases htraces tid task hl with ⟨task₀, hl₀, hplan, -⟩ | ⟨-, addrs, hplan⟩
      · rw [hplan]
        exact hi.hints tid task₀ hl₀
      · rw [hplan, hi.enabled]
        exact DialPlan.select_hint s.config addrs
    · rcases htraces tid task hl with ⟨task₀, hl₀, -, hdial⟩ | ⟨hstart, -⟩
      · rcases hdial key upgradeKey hphase with h₀ | hnone | hhint
        · exact hi.dials tid task₀ key upgradeKey hl₀ h₀
        · exact hnone
        · exact absurd (hi.hints tid task₀ hl₀) hhint
      · rw [hstart] at hphase
        cases hphase
  · -- There is no session to take a step.
    cases h with
    | busy _ hl | begin _ hl | publish _ hl | receive _ hl | fail _ hl | upgraded _ hl
    | answered _ hl =>
      rw [hi.sessions] at hl
      cases hl
  · refine hi.of_wiring ?_ (by rw [h.frame])
    rw [h.frame]
    rfl

/-- Without channels there is no route over one. -/
theorem Sys.Unwired.routes (hi : s.Unwired) (hs : endpoint.Reachable s) (addr : SocketAddr)
    (id : ChannelId) : s.st.routes.lookup addr ≠ some (.channel id) := by
  intro hroute
  obtain ⟨entry, he, -⟩ := (Routing.Inv.reachable (routing_simulation.reachable hs)).channel
    addr id hroute
  have hnone : s.st.channels.lookup id = none := by rw [hi.channels]; rfl
  cases hnone.symm.trans he

/-- A response does not go over a channel, without a route over one. -/
theorem State.responses_channel {st : State} {addr : SocketAddr} {source : Option EndpointId}
    {event : DatagramEvent}
    (hroutes : ∀ addr id, st.routes.lookup addr ≠ some (.channel id)) :
    (st.responses addr source event).filterMap Outbound.channel? = [] := by
  refine List.filterMap_eq_nil_iff.2 fun d hd => ?_
  obtain ⟨packet, rfl⟩ := mem_responses hd
  unfold responds
  split <;> rename_i hr
  · rfl
  · exact absurd hr (hroutes _ _)
  · rfl

/-- Nothing is produced for a channel, without a route over one. -/
theorem Produces.channel_nil {queued : List Outbound} (h : Produces s s' queued)
    (hi : s.Unwired) (hs : endpoint.Reachable s) : queued.filterMap Outbound.channel? = [] := by
  have hroutes := hi.routes hs
  cases h with
  | @drain polling _ _ _ _ _ _ hpicks =>
    generalize s.st.polledTransmits polling = transmits at hpicks
    induction hpicks with
    | nil => rfl
    | @cons t d _ _ hpick _ ih =>
      have hwire := picks_wire hpick
      cases d with
      | channel id payload => exact absurd hwire.symm (hroutes _ _)
      | relay | udp => exact ih
  | relay _ _ ha =>
    refine responses_channel fun addr id => ?_
    rcases addrForPeer_cases ha with ⟨rfl, -⟩ | ⟨-, -, -, rfl⟩
    · exact hroutes addr id
    · intro hroute
      rcases Table.lookup_insert_some.1 hroute with ⟨-, hwire⟩ | ⟨-, hroute⟩
      · cases hwire
      · exact hroutes addr id hroute
  | channel _ hmem =>
    rw [hi.recvs] at hmem
    cases hmem
  | udp => exact responses_channel hroutes
  | signal => rfl

/-- Nothing is queued for a channel. -/
theorem Sys.Unwired.queue (hi : s.Unwired) (hs : endpoint.Reachable s) (h : Step s s')
    (hq : s.st.channelOutbound = []) : s'.st.channelOutbound = [] := by
  rcases h.traffic with ⟨queued, hqueued⟩ | ⟨d, hdeparts⟩ | hunsent
  · rw [hqueued.queues.channel, hq, hqueued.channel_nil hi hs, List.append_nil]
  · have hd := hdeparts.dequeues.channel
    rw [hq] at hd
    exact (List.append_eq_nil_iff.1 hd.symm).2
  · rw [hunsent.channel, hq]
    rfl

/-- In every run, no channel is opened. -/
theorem Sys.Unwired.leads (hi : s.Unwired) (hs : endpoint.Reachable s)
    (hq : s.st.channelOutbound = []) (h : endpoint.Leads s s') :
    s'.Unwired ∧ s'.st.channelOutbound = [] := by
  induction h with
  | refl => exact ⟨hi, hq⟩
  | tail hl hst ih => exact ⟨ih.1.step hst, ih.1.queue (hs.leads hl) hst ih.2⟩

end Unwired

/-! ## Without a socket -/

/-- There is no socket, and no call dials directly. -/
structure Sys.Socketless (s : Sys) : Prop where
  config : s.config.udp = false
  recv : s.pump.udpRecv = false
  send : s.pump.pc ≠ .sendUdp
  direct : ∀ tid task, s.connects.lookup tid = some task → task.plan.direct = none

/-- An endpoint that was bound without a socket has none. -/
theorem Sys.bound_socketless {config : Config} {now : Instant} {st : State}
    (h : config.udp = false) : (Sys.bound config now st).Socketless :=
  ⟨h, h, nofun, nofun⟩

section Socketless

variable {s s' : Sys}

/-- A failing relay binds no socket. -/
theorem Sys.FailsRelays.socket (h : s.FailsRelays s') :
    s'.config = s.config ∧ s'.pump.udpRecv = s.pump.udpRecv := by
  rw [FailsRelays] at h
  rw [h]
  exact ⟨rfl, rfl⟩

/-- The pump binds no socket, and does not receive from it again once it has died. -/
theorem PumpStep.socket (h : PumpStep s s') :
    s'.config = s.config ∧ (s'.pump.udpRecv = s.pump.udpRecv ∨ s'.pump.udpRecv = false) := by
  cases h with
  | relaySendFailed =>
    split
    · exact (s.failHome_fails _ _).socket.imp_right .inl
    · exact ⟨rfl, .inl rfl⟩
  | arm =>
    rw [Sys.foldl_spawnUpgrade_frame]
    exact ⟨rfl, .inl rfl⟩
  | relaySignal =>
    rw [Sys.handleSignal_frame]
    exact ⟨rfl, .inl rfl⟩
  | relayFailed => exact (Sys.failReceive_fails _ _ _ _).socket.imp_right .inl
  | udpFailed => exact ⟨rfl, .inr rfl⟩
  | redialFailed =>
    rw [Sys.failRedial]
    split <;> exact ⟨rfl, .inl rfl⟩
  | tick => exact (Sys.sweep_fails _ _ _).socket.imp_right .inl
  | _ => exact ⟨rfl, .inl rfl⟩

/-- The pump sends to the socket that the endpoint has. -/
theorem PumpStep.udp_of_send (h : PumpStep s s') (hpc : s'.pump.pc = .sendUdp) :
    s.config.udp = true := by
  cases h with
  | relayLost hpc' =>
    cases hpc'.symm.trans hpc
  | udpSend =>
    by_contra hudp
    rw [if_neg hudp] at hpc
    cases hpc
  | channelSend =>
    dsimp only [Sys.goto] at hpc
    split at hpc <;> cases hpc
  | arm =>
    rw [Sys.foldl_spawnUpgrade_frame] at hpc
    cases hpc
  | _ => cases hpc

/-- The configuration does not change. -/
theorem Step.config (h : Step s s') : s'.config = s.config := by
  rcases h.cases with h | h | h | h
  · exact h.socket.1
  · rw [h.frame]
  · cases h <;> rfl
  · rw [h.frame]

/-- No step binds a socket. -/
theorem Sys.Socketless.step (hi : s.Socketless) (h : Step s s') : s'.Socketless := by
  have hconfig : s'.config.udp = false := by rw [h.config, hi.config]
  have hother : s'.pump = s.pump → s'.connects = s.connects → s'.Socketless :=
    fun hp hc => ⟨hconfig, hp ▸ hi.recv, hp ▸ hi.send, hc ▸ hi.direct⟩
  rcases h.cases with h | h | h | h
  · refine ⟨hconfig, ?_, fun hpc => ?_, h.handles.1 ▸ hi.direct⟩
    · rcases h.socket.2 with hsame | hdead
      · exact hsame.trans hi.recv
      · exact hdead
    · have hudp := h.udp_of_send hpc
      rw [hi.config] at hudp
      cases hudp
  · have hpump : s'.pump = s.pump := by rw [h.frame]
    refine ⟨hconfig, hpump ▸ hi.recv, hpump ▸ hi.send, fun tid task hl => ?_⟩
    rcases h.traces hl with ⟨task₀, hl₀, hplan, -⟩ | ⟨-, addrs, hplan⟩
    · rw [hplan]
      exact hi.direct tid task₀ hl₀
    · rw [hplan]
      exact DialPlan.select_direct hi.config _ addrs
  · exact hother h.work.1 h.handles.1
  · exact hother (by rw [h.frame]) (by rw [h.frame])

end Socketless

/-! ## The grants -/

namespace OptionsCall

/-- The relay that a call names. -/
def relayUrl? : OptionsCall → Option String
  | relayUrl url => some url
  | _ => none

/-- The address of the socket that a call names. -/
def udpBindAddr? : OptionsCall → Option String
  | udpBindAddr addr => some addr
  | _ => none

/-- Whether a call enables WebRTC, if it is about that. -/
def webrtc? : OptionsCall → Option Bool
  | webrtc enabled => some enabled
  | _ => none

end OptionsCall

/-- The last call of a kind counts. -/
theorem OptionsState.after_eq (identity : EndpointId) (calls : List OptionsCall) :
    (after identity calls).relayUrl = (calls.filterMap OptionsCall.relayUrl?).getLast? ∧
      (after identity calls).udpBindAddr =
        (calls.filterMap OptionsCall.udpBindAddr?).getLast? ∧
      (after identity calls).webrtc =
        ((calls.filterMap OptionsCall.webrtc?).getLast?).getD false := by
  induction calls using List.reverseRecOn with
  | nil => exact ⟨rfl, rfl, rfl⟩
  | append_singleton calls last ih =>
    obtain ⟨hrelay, hudp, hwebrtc⟩ := ih
    rw [after] at hrelay hudp hwebrtc ⊢
    rw [List.foldl_append]
    cases last <;>
      simp [call, hrelay, hudp, hwebrtc, OptionsCall.relayUrl?, OptionsCall.udpBindAddr?,
        OptionsCall.webrtc?]

/-- What `bind` returns: the home relay is registered, and there is a socket if the options name
    an address for it. -/
theorem OptionsState.bind_eq {o : OptionsState} {host : BindHost} {unprintable : Char → Bool}
    {now : Instant} {e : EndpointRes} (h : o.bind host unprintable now = .ok e) :
    ∃ url, o.relayUrl = some url ∧ (o.udpBindAddr = none → e.udp = none) ∧
      e.sys = .bound ⟨url, e.udp.isSome, fun text => (host.parse text).toOption⟩ now
        (.bound o.webrtc url) := by
  obtain ⟨url, hurl, h⟩ := Except.bind_eq_ok.1 h
  obtain ⟨_, -, h⟩ := Except.bind_eq_ok.1 h
  obtain ⟨_, -, h⟩ := Except.bind_eq_ok.1 h
  obtain ⟨_, -, h⟩ := Except.bind_eq_ok.1 h
  obtain ⟨_, -, h⟩ := Except.bind_eq_ok.1 h
  obtain ⟨_, -, h⟩ := Except.bind_eq_ok.1 h
  obtain ⟨_, -, h⟩ := Except.bind_eq_ok.1 h
  obtain ⟨udp, hudp, h⟩ := Except.bind_eq_ok.1 h
  cases h
  refine ⟨url, ?_, fun hnone => ?_, rfl⟩
  · cases hr : o.relayUrl with
    | none =>
      rw [hr] at hurl
      cases hurl
    | some url' =>
      rw [hr] at hurl
      cases hurl
      rfl
  · rw [hnone] at hudp
    cases hudp
    rfl

/-- The endpoint has no channels: it neither starts nor answers a signaling session, and its
    peers are reached over the other wires. -/
structure Sys.NoWebrtc (s : Sys) : Prop where
  sessions : s.sessions = ∅
  slots : ∀ peer, s.st.signaling.lookup peer = none
  upgrades : s.st.pendingUpgrades = []
  channels : s.st.channels = ∅
  receives : s.pump.channelRecvs = []
  queue : s.st.channelOutbound = []
  routes : ∀ addr id, s.st.routes.lookup addr ≠ some (.channel id)
  path : ∀ handle epoch known, s.st.currentPath handle epoch known ≠ .webrtc

/-- The endpoint has no socket: it does not receive from it, sends nothing to it, and dials nobody
    directly. -/
structure Sys.NoUdp (s : Sys) : Prop where
  receive : s.pump.udpRecv = false
  send : s.pump.pc ≠ .sendUdp
  exit : ∀ remote payload, s.exit (.udp remote payload) = .lost
  direct : ∀ tid task, s.connects.lookup tid = some task → task.plan.direct = none

/-- The wires of a bound endpoint, by the calls of its options. -/
structure Granted (calls : List OptionsCall) (e : EndpointRes) (s : Sys) : Prop where
  home : (calls.filterMap OptionsCall.relayUrl?).getLast? = some s.config.homeUrl
  udp : calls.filterMap OptionsCall.udpBindAddr? = [] → e.directAddr = none ∧ s.NoUdp
  webrtc : (calls.filterMap OptionsCall.webrtc?).getLast? ≠ some true → s.NoWebrtc

/-- Without channels opened or queued for, the endpoint has none. -/
theorem Sys.Unwired.noWebrtc {s : Sys} (hi : s.Unwired) (hs : endpoint.Reachable s)
    (hq : s.st.channelOutbound = []) : s.NoWebrtc := by
  have hroutes := hi.routes hs
  refine ⟨hi.sessions, fun peer => ?_, hi.upgrades, hi.channels, hi.recvs, hq, hroutes,
    fun handle epoch known => ?_⟩
  · -- A slot that is taken is held by a session.
    have hslots := Slots.Inv.reachable (slots_simulation.reachable hs)
    cases hslot : s.st.signaling.lookup peer with
    | none => rfl
    | some via =>
      obtain ⟨tid, session, hl, -⟩ := hslots.held peer via hslot
      have hnone : s.sessions.lookup tid = none := by rw [hi.sessions]; rfl
      cases hnone.symm.trans hl
  · rw [currentPath]
    split
    · decide
    · split
      · split <;> rename_i hr
        · exact absurd hr (hroutes _ _)
        · decide
        · decide
      · decide

/-- In every run of a bound endpoint, its options decide which wires it has. -/
theorem bind_grants {identity : EndpointId} {calls : List OptionsCall} {host : BindHost}
    {unprintable : Char → Bool} {now : Instant} {e : EndpointRes} {s : Sys}
    (hbind : (OptionsState.after identity calls).bind host unprintable now = .ok e)
    (h : endpoint.Leads e.sys s) : Granted calls e s := by
  obtain ⟨url, hurl, hnone, hsys⟩ := OptionsState.bind_eq hbind
  obtain ⟨hrelay, hudp, hwebrtc⟩ := OptionsState.after_eq identity calls
  have hinit : endpoint.Reachable e.sys := by
    rw [hsys]
    exact (bound_reachable (fun _ _ => True) ⟨url, _, _⟩ _ now).of_restrict
  refine ⟨?_, fun hcalls => ?_, fun hlast => ?_⟩
  · have hconfig : s.config = e.sys.config := by
      induction h with
      | refl => rfl
      | tail _ hst ih => exact (Step.config hst).trans ih
    rw [← hrelay, hurl, hconfig, hsys]
    rfl
  · rw [hcalls] at hudp
    have hno := hnone hudp
    have hstart : e.sys.Socketless := by
      rw [hsys, hno]
      exact Sys.bound_socketless rfl
    have hi : s.Socketless := by
      induction h with
      | refl => exact hstart
      | tail _ hst ih => exact ih.step hst
    refine ⟨by rw [EndpointRes.directAddr, hno]; rfl, hi.recv, hi.send, fun _ _ => ?_, hi.direct⟩
    rw [Sys.exit, hi.config]
    rfl
  · have hfalse : (OptionsState.after identity calls).webrtc = false := by
      rw [hwebrtc]
      cases hl : (calls.filterMap OptionsCall.webrtc?).getLast? with
      | none => rfl
      | some enabled =>
        cases enabled with
        | false => rfl
        | true => exact absurd hl hlast
    have hstart : e.sys.Unwired := by
      rw [hsys, hfalse]
      exact Sys.bound_unwired _ now url
    obtain ⟨hi, hq⟩ := hstart.leads hinit (by rw [hsys]; rfl) h
    exact hi.noWebrtc (hinit.leads h) hq

/-- A host that grants all that it is asked for, but has no UDP. -/
def BindHost.withoutUdp : BindHost where
  parse _ := .error "invalid socket address syntax"
  create _ := .error .notSupported
  bind _ := .error .notSupported
  getLocalAddress := .error .notSupported
  dialRelay _ := .ok ()
  resetKey := .ok ()
  tokenMaster := .ok ()
  serverTls _ _ := .ok ()
  serverQuicTls := .ok ()

/-- An endpoint that is bound with a relay only, and whose peer signals an offer to it, has no
    channel and no socket. -/
theorem bind_grants_relayOnly : ∃ e s,
    (OptionsState.after (Vector.replicate 32 1)
      [.relayUrl "https://home.example", .addAlpn [0x68, 0x33]]).bind
        .withoutUdp (fun _ => false) 0 = .ok e ∧
    endpoint.Leads e.sys s ∧ s.NoWebrtc ∧ s.NoUdp := by
  have hidle := (idle_leads ⟨"https://home.example", false, fun _ => none⟩ false 0).of_restrict
  have hsignal := hidle.tail (.pump (@PumpStep.relaySignal _ homeRelay ⟨0⟩ (Vector.replicate 32 7)
    [signalPrefix] rfl rfl List.mem_cons_self rfl))
  have hgrants := @bind_grants (Vector.replicate 32 1)
    [.relayUrl "https://home.example", .addAlpn [0x68, 0x33]] .withoutUdp (fun _ => false) 0 _ _
    rfl hsignal
  exact ⟨_, _, rfl, hsignal, hgrants.webrtc nofun, (hgrants.udp rfl).2⟩

end IrohEndpoint
