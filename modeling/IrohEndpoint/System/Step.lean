import IrohEndpoint.Lib.Transition
import IrohEndpoint.System.Pump

/-!
# The endpoint as a transition system

A bound endpoint runs on one cooperative thread: the pump, the calls of the
exported resources and the signaling sessions take turns, switching only at an
`await`. A step (`Step`) is one synchronous piece of one task:

* `PumpStep`: a step of the pump;
* `ConnectStep`: a `connect` call, with the opening of the relays it dials
  through (`ensure_relay`), from its start to the resource it returns, or its
  cancellation at any `await`;
* `SessionStep`: the signaling sessions, the offerer `upgrade` and the answerer
  `answer`;
* the remaining constructors of `Step`: `accept`, the methods of connections
  and streams, closing, dropping, and the passing of time.

A task that is not the pump runs only while the pump awaits, and only if no
other task is between two awaits (`Sys.mayRun`). What the outside decides
(noq, the relays, the peers, the clock, the callers) is chosen freely.
-/

namespace IrohEndpoint

open Transition

open State in
/-- A step of a `connect` call. -/
inductive ConnectStep : Sys → Sys → Prop
  /-- An identity that is not 32 bytes is refused, with no effect. -/
  | refused {s : Sys} {addr : EndpointAddr} {err : Error} :
      s.quiet = true → EndpointId.ofBytes addr.endpointId = .error err → ConnectStep s s
  | call {s : Sys} {tid : TaskId} {addr : EndpointAddr} {peer : EndpointId} :
      s.quiet = true → s.connects.lookup tid = none →
      (hpeer : EndpointId.ofBytes addr.endpointId = .ok peer) →
      ConnectStep s (s.proceed tid
        ⟨addr, peer, DialPlan.select s.config s.st.webrtcEnabled addr.addrs, .resolve .dial, hpeer⟩
        (.resolve .dial))
  /-- There is no pool key to resolve. -/
  | skip {s : Sys} {tid : TaskId} {task : ConnectTask} {target : Target} :
      s.mayRun tid = true → s.connects.lookup tid = some task → task.phase = .resolve target →
      target.url task.plan = none →
      ConnectStep s (s.proceed tid task target.skip)
  | found {s : Sys} {tid : TaskId} {task : ConnectTask} {target : Target} {url : String}
      {st : State} {key : RelayKey} :
      s.mayRun tid = true → s.connects.lookup tid = some task → task.phase = .resolve target →
      target.url task.plan = some url → s.st.ensureRelay url = (st, .found key) →
      ConnectStep s (Sys.proceed { s with st := st } tid task (target.next key))
  | closed {s : Sys} {tid : TaskId} {task : ConnectTask} {target : Target} {url : String}
      {st : State} :
      s.mayRun tid = true → s.connects.lookup tid = some task → task.phase = .resolve target →
      target.url task.plan = some url → s.st.ensureRelay url = (st, .closed) →
      ConnectStep s (Sys.pause { s with st := st } tid task (.done (.error .closed)))
  | claimed {s : Sys} {tid : TaskId} {task : ConnectTask} {target : Target} {url : String}
      {st : State} :
      s.mayRun tid = true → s.connects.lookup tid = some task → task.phase = .resolve target →
      target.url task.plan = some url → s.st.ensureRelay url = (st, .claimed) →
      ConnectStep s (Sys.pause { s with st := st } tid task (.opening target))
  | shared {s : Sys} {tid : TaskId} {task : ConnectTask} {target : Target} {url : String}
      {st : State} :
      s.mayRun tid = true → s.connects.lookup tid = some task → task.phase = .resolve target →
      target.url task.plan = some url → s.st.ensureRelay url = (st, .shared) →
      ConnectStep s (Sys.pause { s with st := { st with waiters := tid :: st.waiters } } tid task
        (.waiting target s.now))
  /-- The dial of a relay resolves with a connection, which joins the pool. -/
  | opened {s : Sys} {tid : TaskId} {task : ConnectTask} {target : Target} {url : String}
      {st : State} {key : RelayKey} :
      s.quiet = true → s.connects.lookup tid = some task → task.phase = .opening target →
      target.url task.plan = some url →
      (s.st.releaseClaim url).registerRelay url ⟨s.relayConns⟩ = .ok (st, key) →
      ConnectStep s (Sys.proceed { s with st := st, relayConns := s.relayConns + 1 } tid task
        (target.next key))
  | openFailed {s : Sys} {tid : TaskId} {task : ConnectTask} {target : Target} {url : String}
      {err : DialError} :
      s.quiet = true → s.connects.lookup tid = some task → task.phase = .opening target →
      target.url task.plan = some url →
      ConnectStep s (Sys.pause { s with st := s.st.releaseClaim url } tid task
        (.done (.error (err.report url))))
  /-- Another call's open has an outcome, or the wait is over. -/
  | woken {s : Sys} {tid : TaskId} {task : ConnectTask} {target : Target} {started : Instant}
      {url : String} {key : RelayKey} :
      s.quiet = true → s.connects.lookup tid = some task → task.phase = .waiting target started →
      target.url task.plan = some url →
      s.st.ensureRelayCheck (normalizeRelayUrl url) started s.now = some (.ok key) →
      ConnectStep s (s.proceed tid task (target.next key))
  | wokenFailed {s : Sys} {tid : TaskId} {task : ConnectTask} {target : Target}
      {started : Instant} {url : String} {err : Error} :
      s.quiet = true → s.connects.lookup tid = some task → task.phase = .waiting target started →
      target.url task.plan = some url →
      s.st.ensureRelayCheck (normalizeRelayUrl url) started s.now = some (.error err) →
      ConnectStep s (s.pause tid task (.done (.error err)))
  /-- The TLS configuration fails. -/
  | tlsFailed {s : Sys} {tid : TaskId} {task : ConnectTask} {dialKey : RelayKey}
      {upgradeKey : Option RelayKey} {detail : String} :
      s.mayRun tid = true → s.connects.lookup tid = some task →
      task.phase = .dialing dialKey upgradeKey →
      ConnectStep s (s.pause tid task (.done (.error (.other detail))))
  | dialClosed {s : Sys} {tid : TaskId} {task : ConnectTask} {dialKey : RelayKey}
      {upgradeKey : Option RelayKey} :
      s.mayRun tid = true → s.connects.lookup tid = some task →
      task.phase = .dialing dialKey upgradeKey → s.st.closed = true →
      ConnectStep s (s.pause tid task (.done (.error .closed)))
  /-- noq refuses the dial. -/
  | dialFailed {s : Sys} {tid : TaskId} {task : ConnectTask} {dialKey : RelayKey}
      {upgradeKey : Option RelayKey} {st : State} {remote : SocketAddr} {detail : String} :
      s.mayRun tid = true → s.connects.lookup tid = some task →
      task.phase = .dialing dialKey upgradeKey → s.st.closed = false →
      s.st.dialAddr task.peer task.plan.direct dialKey = .ok (st, remote) →
      ConnectStep s (Sys.pause { s with st := st } tid task
        (.done (.error (.connectFailed detail))))
  | dialed {s : Sys} {tid : TaskId} {task : ConnectTask} {dialKey : RelayKey}
      {upgradeKey : Option RelayKey} {st st' : State} {remote : SocketAddr}
      {handle : ConnectionHandle} {epoch : ℕ} :
      s.mayRun tid = true → s.connects.lookup tid = some task →
      task.phase = .dialing dialKey upgradeKey → s.st.closed = false →
      s.st.dialAddr task.peer task.plan.direct dialKey = .ok (st, remote) →
      st.dialed task.peer remote handle upgradeKey = .ok (st', epoch) →
      ConnectStep s (Sys.pause { s with st := { st' with waiters := tid :: st'.waiters } } tid task
        (.parked handle epoch))
  /-- The handshake completes: the guard is disarmed and the connection handed
      out. -/
  | connected {s : Sys} {tid : TaskId} {task : ConnectTask} {handle : ConnectionHandle}
      {epoch : ℕ} {rid : ResId} :
      s.quiet = true → s.connects.lookup tid = some task → task.phase = .parked handle epoch →
      s.st.connectCheck handle epoch = some (.ok ()) → s.connections.lookup rid = none →
      ConnectStep s (Sys.pause { s with connections := s.connections.insert rid ⟨handle, epoch⟩ }
        tid task (.done (.ok rid)))
  /-- The dial fails, and the guard is dropped. -/
  | failed {s : Sys} {tid : TaskId} {task : ConnectTask} {handle : ConnectionHandle} {epoch : ℕ}
      {err : Error} :
      s.quiet = true → s.connects.lookup tid = some task → task.phase = .parked handle epoch →
      s.st.connectCheck handle epoch = some (.error err) →
      ConnectStep s (Sys.pause { s with st := s.st.dropDialGuard handle epoch } tid task
        (.done (.error err)))
  /-- The call is cancelled while it dials a relay, waits for another call's
      dial, or waits for the handshake. -/
  | cancelOpening {s : Sys} {tid : TaskId} {task : ConnectTask} {target : Target} {url : String} :
      s.quiet = true → s.connects.lookup tid = some task → task.phase = .opening target →
      target.url task.plan = some url →
      ConnectStep s { s with
        st := s.st.releaseClaim url
        connects := s.connects.erase tid }
  | cancelWaiting {s : Sys} {tid : TaskId} {task : ConnectTask} {target : Target}
      {started : Instant} :
      s.quiet = true → s.connects.lookup tid = some task → task.phase = .waiting target started →
      ConnectStep s { s with connects := s.connects.erase tid }
  | cancelParked {s : Sys} {tid : TaskId} {task : ConnectTask} {handle : ConnectionHandle}
      {epoch : ℕ} :
      s.quiet = true → s.connects.lookup tid = some task → task.phase = .parked handle epoch →
      ConnectStep s { s with
        st := s.st.dropDialGuard handle epoch
        connects := s.connects.erase tid }

/-- The channel that `session` registered between two states, if it did. -/
def SignalingSession.registration (session : SignalingSession) (before after : State) :
    List Registration :=
  if before.nextChannelId = after.nextChannelId then []
  else ((after.channels.lookup after.nextChannelId).map fun entry =>
    ⟨after.nextChannelId, session, entry⟩).toList

/-- The stream handed out by a call on a connection, if it succeeds: its send
    half, its receive half or both, all with the stamp of the connection. -/
def ConnectionRes.minted (res : ConnectionRes) : Option (Except Error StreamId) → List StreamRes
  | some (.ok id) => [⟨res.handle, res.epoch, id⟩]
  | _ => []

open State in
/-- A step of a signaling session. -/
inductive SessionStep : Sys → Sys → Prop
  /-- The offerer finds the peer's slot taken, and ends. -/
  | busy {s : Sys} {tid : TaskId} {session : SignalingSession} {err : Error} :
      s.quiet = true → s.sessions.lookup tid = some session → session.live = false →
      s.st.beginSignaling session.peer session.via = .error err →
      SessionStep s { s with sessions := s.sessions.erase tid }
  | begin {s : Sys} {tid : TaskId} {session : SignalingSession} {st : State} :
      s.quiet = true → s.sessions.lookup tid = some session → session.live = false →
      s.st.beginSignaling session.peer session.via = .ok st →
      SessionStep s { s with
        st := st
        sessions := s.sessions.insert tid { session with live := true } }
  /-- Publish one signal to the peer, through the session's relay. -/
  | publish {s : Sys} {tid : TaskId} {session : SignalingSession} {relay : RelayKey}
      {json : Bytes} :
      s.quiet = true → s.sessions.lookup tid = some session → session.live = true →
      s.st.signalingRelay session.peer = some relay →
      SessionStep s { s with
        st := s.st.pushSignalOutbound relay session.peer (signalPrefix :: json)
        sessions := s.sessions.insert tid
          { session with published := session.published ++ [relay] } }
  /-- Take the peer's next signal, or learn that there is none. -/
  | receive {s : Sys} {tid : TaskId} {session : SignalingSession} {started : Instant} :
      s.quiet = true → s.sessions.lookup tid = some session → session.live = true →
      SessionStep s { s with st := (s.st.nextSignalCheck session.peer started s.now).1 }
  /-- The dance fails: the session guard frees the slot. -/
  | fail {s : Sys} {tid : TaskId} {session : SignalingSession} :
      s.quiet = true → s.sessions.lookup tid = some session → session.live = true →
      SessionStep s { s with
        st := s.st.endSignaling session.peer
        sessions := s.sessions.erase tid }
  /-- The offerer's dance succeeds: `dial` returns, dropping the session guard,
      and `upgrade` registers the channel. -/
  | upgraded {s : Sys} {tid : TaskId} {session : SignalingSession} {st : State}
      {result : Except Error Unit} :
      s.quiet = true → s.sessions.lookup tid = some session → session.live = true →
      session.role = .offerer →
      (s.st.endSignaling session.peer).registerChannel session.peer ⟨s.channelWires⟩ =
        .ok (st, result) →
      SessionStep s { s with
        st := st
        sessions := s.sessions.erase tid
        channelWires := s.channelWires + 1
        registrations := s.registrations ++ session.registration s.st st }
  /-- The answerer's dance succeeds: it registers the channel, and then drops
      the session guard. -/
  | answered {s : Sys} {tid : TaskId} {session : SignalingSession} {st : State}
      {result : Except Error Unit} :
      s.quiet = true → s.sessions.lookup tid = some session → session.live = true →
      session.role = .answerer →
      s.st.registerChannel session.peer ⟨s.channelWires⟩ = .ok (st, result) →
      SessionStep s { s with
        st := st.endSignaling session.peer
        sessions := s.sessions.erase tid
        channelWires := s.channelWires + 1
        registrations := s.registrations ++ session.registration s.st st }

open State in
/-- A step of a bound endpoint. -/
inductive Step : Sys → Sys → Prop
  | pump {s s' : Sys} : PumpStep s s' → Step s s'
  | connect {s s' : Sys} : ConnectStep s s' → Step s s'
  | session {s s' : Sys} : SessionStep s s' → Step s s'
  /-- Time passes. -/
  | pass {s : Sys} {d : Duration} : Step s { s with now := s.now + d }
  /-- A parked operation is woken, finds nothing, and parks again. -/
  | repark {s : Sys} {tid : TaskId} :
      s.quiet = true → Step s { s with st := { s.st with waiters := tid :: s.st.waiters } }
  /-- `accept` hands out the first connection of the queue that is current. -/
  | accept {s : Sys} {tid : TaskId} {st : State} {handle : ConnectionHandle} {epoch : ℕ}
      {rid : ResId} :
      s.quiet = true → s.st.acceptCheck = (st, some (.ok (handle, epoch))) →
      s.connections.lookup rid = none →
      Step s { s with
        st := st
        accepts := s.accepts.erase tid
        connections := s.connections.insert rid ⟨handle, epoch⟩ }
  | acceptClosed {s : Sys} {tid : TaskId} {st : State} {err : Error} :
      s.quiet = true → s.st.acceptCheck = (st, some (.error err)) →
      Step s { s with st := st, accepts := s.accepts.erase tid }
  | acceptPark {s : Sys} {tid : TaskId} {st : State} :
      s.quiet = true → s.st.acceptCheck = (st, none) →
      Step s { s with
        st := { st with waiters := tid :: st.waiters }
        accepts := tid :: s.accepts.erase tid }
  | acceptCancel {s : Sys} {tid : TaskId} :
      s.quiet = true → Step s { s with accepts := s.accepts.erase tid }
  /-- `endpoint.close`, or the drop of the endpoint. -/
  | closeEndpoint {s : Sys} {reason : Bytes} :
      s.quiet = true → Step s { s with st := s.st.closeEndpoint s.now reason }
  | closeConnection {s : Sys} {rid : ResId} {res : ConnectionRes} {code : ℕ} {reason : Bytes} :
      s.quiet = true → s.connections.lookup rid = some res →
      Step s { s with st := s.st.closeConnection res.handle res.epoch (appCode code) reason }
  | dropConnection {s : Sys} {rid : ResId} {res : ConnectionRes} :
      s.quiet = true → s.connections.lookup rid = some res →
      Step s { s with
        st := s.st.dropConnection res.handle res.epoch
        connections := s.connections.erase rid }
  /-- `open_bi` or `open_uni`: a stream is handed out, or the call fails or
      parks. -/
  | openStream {s : Sys} {rid : ResId} {res : ConnectionRes} {kickedBlocked : Bool}
      {opened : Option StreamId} {st : State} {result : Option (Except Error StreamId)} :
      s.quiet = true → s.connections.lookup rid = some res →
      s.st.openStreamCheck res.handle res.epoch kickedBlocked opened = (st, result) →
      Step s { s with st := st, streams := s.streams ++ res.minted result }
  /-- `accept_bi` or `accept_uni`. -/
  | acceptStream {s : Sys} {rid : ResId} {res : ConnectionRes} {dir : Dir} {st : State}
      {result : Option (Except Error StreamId)} :
      s.quiet = true → s.connections.lookup rid = some res →
      s.st.acceptStreamCheck res.handle res.epoch dir = (st, result) →
      Step s { s with st := st, streams := s.streams ++ res.minted result }
  /-- `path_changes` starts a task, which may outlive the connection. -/
  | pathChanges {s : Sys} {rid : ResId} {res : ConnectionRes} :
      s.quiet = true → s.connections.lookup rid = some res →
      Step s { s with watches := s.watches ++ [res] }
  /-- A method that acts on noq alone (a write, a read, `finish`, `reset`,
      `stop`, `send-datagram`) kicks the pump to flush it. -/
  | kick {s : Sys} : s.quiet = true → Step s { s with st := s.st.kickPump }

/-- A bound endpoint: it starts as `bind` leaves it, with the home relay
    registered. -/
def endpoint : System Sys where
  init := {s | ∃ (config : Config) (webrtc : Bool) (now : Instant) (st : State) (key : RelayKey),
    (State.new webrtc).registerRelay config.homeUrl ⟨0⟩ = .ok (st, key) ∧
      s = Sys.bound config now st}
  step := Step

/-! ## The start of a run -/

/-- The state that `bind` leaves. -/
def State.bound (webrtc : Bool) (homeUrl : String) : State :=
  State.kickPump { State.new webrtc with
    nextRelayKey := 1
    relayPool := AList.insert homeRelay ⟨0⟩ ∅
    relayKeys := AList.insert (normalizeRelayUrl homeUrl) homeRelay ∅
    newRelays := [(homeRelay, ⟨0⟩)] }

/-- The configuration of an endpoint with a home relay and no UDP socket. -/
def Config.relayOnly (homeUrl : String) : Config := ⟨homeUrl, false, fun _ => none⟩

/-- The endpoint once its pump is suspended in its select. -/
def Sys.idle (config : Config) (webrtc : Bool) (now : Instant) : Sys :=
  let s := Sys.bound config now (State.bound webrtc config.homeUrl)
  { s with
    st := { s.st with newRelays := [], pumpKicked := false, pumpWaker := true }
    pump := { s.pump with pc := .suspended, relayRecvs := [(homeRelay, ⟨0⟩)] } }

/-- A step that polls no connection, queues and sends nothing on a relay, and does
    not leave the loop. -/
structure Sys.Still (s s' : Sys) : Prop where
  unpolled : s.pump.pc = .top → s.st.conns = ∅
  unsent : s'.st.relayOutbound = s.st.relayOutbound
  stays : s'.pump.pc ≠ .leaving

/-- Such a step that also leaves the relays and the backoff of the redial alone. -/
structure Sys.Rests (s s' : Sys) : Prop extends s.Still s' where
  pool : s'.st.relayPool = s.st.relayPool
  backoff : s'.pump.backoff = s.pump.backoff

/-- With nothing to send, the pump arms its receives and reaches its select, where it
    rests. -/
theorem select_rests {s : Sys} (hpc : s.pump.pc = .flushRelay)
    (hrelay : s.st.relayOutbound = []) (hudp : s.st.udpOutbound = [])
    (hchannel : s.st.channelOutbound = []) (hupgrade : s.st.pendingUpgrades = [])
    (hstay : s.st.mayEnd s.now = false) :
    (endpoint.restrict Sys.Rests).Leads s { s with
      st := { s.st with newRelays := [], newChannels := [] }
      pump := { s.pump with
        pc := .polling
        relayRecvs := s.pump.relayRecvs ++ s.st.newRelays
        channelRecvs := s.pump.channelRecvs ++ s.st.newChannels } } := by
  have hnone : s.pump.pc = .top → s.st.conns = ∅ := fun h => nomatch hpc.symm.trans h
  have hrelayed : (endpoint.restrict Sys.Rests).Leads s _ :=
    .single ⟨.pump (.relayEmpty hpc hrelay), ⟨hnone, rfl, nofun⟩, rfl, rfl⟩
  have hflush := (hrelayed.tail ⟨.pump (.udpEmpty rfl hudp), ⟨nofun, rfl, nofun⟩, rfl, rfl⟩).tail
    ⟨.pump (.channelEmpty rfl hchannel), ⟨nofun, rfl, nofun⟩, rfl, rfl⟩
  have harm : PumpStep (s.goto .arm) _ := .arm rfl
  simp only [Sys.goto, hupgrade, List.foldl_nil] at harm
  have hselect := (hflush.tail ⟨.pump harm, ⟨nofun, rfl, nofun⟩, rfl, rfl⟩).tail
    ⟨.pump (.stay rfl hstay), ⟨nofun, rfl, nofun⟩, rfl, rfl⟩
  simp only [Sys.goto] at hselect
  rwa [← hupgrade] at hselect

/-- With nothing to send, the pump reaches its select. -/
theorem select_leads {s : Sys} (hpc : s.pump.pc = .flushRelay)
    (hrelay : s.st.relayOutbound = []) (hudp : s.st.udpOutbound = [])
    (hchannel : s.st.channelOutbound = []) (hupgrade : s.st.pendingUpgrades = [])
    (hstay : s.st.mayEnd s.now = false) :
    (endpoint.restrict Sys.Still).Leads s { s with
      st := { s.st with newRelays := [], newChannels := [] }
      pump := { s.pump with
        pc := .polling
        relayRecvs := s.pump.relayRecvs ++ s.st.newRelays
        channelRecvs := s.pump.channelRecvs ++ s.st.newChannels } } :=
  System.Leads.weaken (fun _ _ h => h.toStill)
    (select_rests hpc hrelay hudp hchannel hupgrade hstay)

/-- With nothing to send, the select is reached. -/
theorem select_reachable {s : Sys} (hs : endpoint.Reachable s) (hpc : s.pump.pc = .flushRelay)
    (hrelay : s.st.relayOutbound = []) (hudp : s.st.udpOutbound = [])
    (hchannel : s.st.channelOutbound = []) (hupgrade : s.st.pendingUpgrades = [])
    (hstay : s.st.mayEnd s.now = false) :
    endpoint.Reachable { s with
      st := { s.st with newRelays := [], newChannels := [] }
      pump := { s.pump with
        pc := .polling
        relayRecvs := s.pump.relayRecvs ++ s.st.newRelays
        channelRecvs := s.pump.channelRecvs ++ s.st.newChannels } } :=
  hs.leads (select_leads hpc hrelay hudp hchannel hupgrade hstay).of_restrict

/-- After `bind`, the pump comes to rest in its select. -/
theorem idle_leads (config : Config) (webrtc : Bool) (now : Instant) :
    (endpoint.restrict Sys.Still).Leads (Sys.bound config now (State.bound webrtc config.homeUrl))
      (Sys.idle config webrtc now) := by
  have hdrain : (endpoint.restrict Sys.Still).Leads _ _ := .single
    ⟨.pump (@PumpStep.drain (Sys.bound config now (State.bound webrtc config.homeUrl))
      (fun _ => ⟨[], false⟩) _ _ rfl rfl), fun _ => rfl, rfl, nofun⟩
  have hselect := hdrain.trans (select_leads rfl rfl rfl rfl rfl rfl)
  -- The registration of the home relay has kicked the pump: it takes one more turn.
  have hkicked := hselect.tail ⟨.pump (.kicked rfl rfl rfl), nofun, rfl, nofun⟩
  have hdrain' := hkicked.tail
    ⟨.pump (@PumpStep.drain _ (fun _ => ⟨[], false⟩) _ _ rfl rfl), fun _ => rfl, rfl, nofun⟩
  have hselect' := hdrain'.trans (select_leads rfl rfl rfl rfl rfl rfl)
  exact hselect'.tail ⟨.pump (.suspend rfl rfl), nofun, rfl, nofun⟩

/-- Every configuration can be bound. -/
theorem bound_reachable (ok : Sys → Sys → Prop) (config : Config) (webrtc : Bool) (now : Instant) :
    (endpoint.restrict ok).Reachable (Sys.bound config now (State.bound webrtc config.homeUrl)) :=
  .init ⟨config, webrtc, now, _, homeRelay, rfl, rfl⟩

/-- Every configuration can be bound, and its pump comes to rest in its select. -/
theorem idle_reachable (config : Config) (webrtc : Bool) (now : Instant) :
    endpoint.Reachable (Sys.idle config webrtc now) :=
  (bound_reachable Sys.Still config webrtc now).of_restrict.leads
    (idle_leads config webrtc now).of_restrict

/-- A `connect` call to a peer, without hints, that has reached `phase`. -/
def ConnectTask.plain (phase : ConnectPhase) : ConnectTask :=
  ⟨⟨List.replicate 32 7, []⟩, Vector.replicate 32 7, ⟨none, none, none⟩, phase, rfl⟩

/-- The endpoint once that call has dialed, and the pump was kicked. -/
def Sys.dialed : Sys :=
  let s := Sys.idle (.relayOnly "https://home.example") true 0
  let peer : EndpointId := Vector.replicate 32 7
  { s with
    st := { s.st with
      conns := AList.insert 0 (.new (.new 0 (.dialed peer) (docPrefixAddr 0x77 1)) (some peer)
        false 0) ∅
      nextConnEpoch := 1
      insertions := [⟨0, 0, 0⟩]
      nextHost := 1
      peerToAddr := AList.insert peer (docPrefixAddr 0x77 1) ∅
      addrToPeer := AList.insert (docPrefixAddr 0x77 1) peer ∅
      routes := AList.insert (docPrefixAddr 0x77 1) (.relay homeRelay) ∅
      waiters := [0]
      pumpWaker := false }
    pump := { s.pump with pc := .top }
    connects := AList.insert 0 (.plain (.parked 0 0)) ∅ }

/-- A peer can be dialed. -/
theorem dialed_leads :
    (endpoint.restrict Sys.Still).Leads (Sys.idle (.relayOnly "https://home.example") true 0)
      Sys.dialed := by
  have hcall : (endpoint.restrict Sys.Still).Leads _ _ := .single
    ⟨.connect (@ConnectStep.call (Sys.idle (.relayOnly "https://home.example") true 0) 0
      ⟨List.replicate 32 7, []⟩ (Vector.replicate 32 7) rfl rfl rfl), nofun, rfl, nofun⟩
  have hskip := hcall.tail ⟨.connect (@ConnectStep.skip _ 0 (.plain (.resolve .dial)) .dial rfl rfl
    rfl rfl), nofun, rfl, nofun⟩
  have hskip' := hskip.tail ⟨.connect (@ConnectStep.skip _ 0 (.plain (.resolve (.upgrade homeRelay)))
    (.upgrade homeRelay) rfl rfl rfl rfl), nofun, rfl, nofun⟩
  have hdialed := hskip'.tail ⟨.connect (@ConnectStep.dialed _ 0 (.plain (.dialing homeRelay none))
    homeRelay none _ _ (docPrefixAddr 0x77 1) 0 _ rfl rfl rfl rfl (by exact rfl) (by exact rfl)),
    nofun, by exact rfl, nofun⟩
  exact hdialed.tail ⟨.pump (.kicked rfl rfl rfl), nofun, rfl, nofun⟩

/-- The first connection of an endpoint, accepted from a datagram of `peer` that
    the home relay delivered. -/
def ConnEntry.first (peer : EndpointId) : ConnEntry :=
  { ConnEntry.new (.new 0 (.relay peer) (docPrefixAddr 0x77 1)) (some peer) true 0 with
    conn := { NoqConnection.new 0 (.relay peer) (docPrefixAddr 0x77 1) with
      session := some ⟨none, some peer⟩ }
    peer := some peer
    connected := true }

/-- The endpoint at rest, once that connection is handed to the application. -/
def Sys.accepted (peer : EndpointId) : Sys :=
  let s := Sys.idle (.relayOnly "https://home.example") false 0
  { s with
    st := { s.st with
      conns := AList.insert 0 (.first peer) ∅
      nextConnEpoch := 1
      insertions := [⟨0, 0, 0⟩]
      nextHost := 1
      peerToAddr := AList.insert peer (docPrefixAddr 0x77 1) ∅
      addrToPeer := AList.insert (docPrefixAddr 0x77 1) peer ∅
      routes := AList.insert (docPrefixAddr 0x77 1) (.relay homeRelay) ∅ }
    connections := AList.insert 0 ⟨0, 0⟩ ∅ }

/-- The endpoint at rest, while that connection waits to be accepted. -/
def Sys.queued (peer : EndpointId) : Sys :=
  let s := Sys.accepted peer
  { s with st := { s.st with acceptQueue := [(0, 0)] }, connections := ∅ }

/-- A connection can come in. -/
theorem queued_reachable : endpoint.Reachable (Sys.queued (Vector.replicate 32 7)) := by
  have hidle := idle_reachable (.relayOnly "https://home.example") false 0
  have hdatagram := hidle.step (.pump (@PumpStep.relayDatagram _ homeRelay ⟨0⟩
    (Vector.replicate 32 7) [] (.newConnection [] (.ok 0)) _ rfl rfl List.mem_cons_self rfl rfl))
  have hconnected := hdatagram.step (.pump (@PumpStep.drain _
    (fun _ => ⟨[⟨0, [.connected ⟨none, some (Vector.replicate 32 7)⟩], []⟩], false⟩) _ _ rfl rfl))
  have hselect := select_reachable hconnected rfl rfl rfl rfl rfl rfl
  exact hselect.step (.pump (.suspend rfl rfl))

/-- A connection can be accepted. -/
theorem accepted_reachable : endpoint.Reachable (Sys.accepted (Vector.replicate 32 7)) :=
  queued_reachable.step (@Step.accept _ 0 _ 0 0 0 rfl rfl rfl)

/-- The endpoint at rest, once a stream of its first connection is handed out. -/
def Sys.streaming (peer : EndpointId) : Sys := { Sys.accepted peer with streams := [⟨0, 0, 0⟩] }

/-- A stream can be opened. -/
theorem streaming_reachable : endpoint.Reachable (Sys.streaming (Vector.replicate 32 7)) :=
  accepted_reachable.step (@Step.openStream _ 0 ⟨0, 0⟩ false (some 0) _ _ rfl rfl rfl)

end IrohEndpoint
