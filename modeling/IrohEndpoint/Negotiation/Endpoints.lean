import IrohEndpoint.Negotiation.Agreement
import IrohEndpoint.Negotiation.Glare

/-!
# The endpoints of a negotiation

The negotiation of two endpoints, by their shared states: `publish` queues a signal on the relay
of the session, the pump sends it, the pump of the other endpoint passes it to `handle_signal`,
and the session there takes it with `next_signal`. As long as both endpoints are open, and have
the relay in their pools, this is a negotiation, step by step (`duet_bisimulation`).

Hence what is inevitable there is inevitable here: an offer leads to an agreement if and only if
the signals of either endpoint fit into an inbox (`duet_agrees_iff`), and two offers that meet
come to nothing (`duet_glares`).
-/

namespace IrohEndpoint

open Transition Function

/-- An endpoint and the dance of its session with the other one. -/
structure Dancer where
  st : State
  dance : Dance
  /-- The datagrams on their way to it. -/
  wire : List Bytes
  /-- What its dance has taken, what all its dances have taken, and what they have published. -/
  taken : List Bytes
  heard : List Bytes
  published : List Signal

/-- The dance takes a signal. If it fails, the session guard frees the slot. -/
def Dancer.hear (p : Dancer) (peer : EndpointId) (st : State) (payload : Bytes) : Dance → Dancer
  | .vacant => { p with
      st := st.endSignaling peer
      dance := .vacant
      taken := []
      heard := p.heard ++ [payload] }
  | dance => { p with
      st := st
      dance := dance
      taken := p.taken ++ [payload]
      heard := p.heard ++ [payload] }

/-- Two endpoints. -/
abbrev Duet := Side → Dancer

section Duet

-- The identities of the endpoints, and the keys of the relay in their pools.
variable (id : Side → EndpointId) (key : Side → RelayKey)
  (encode : Signal → Bytes) (decode : Bytes → Option Signal) (answer : Publication)

/-- A step of the endpoints, or of the relay between them. -/
inductive DuetStep : Duet → Duet → Prop
  | publish {d : Duet} {i : Side} {off : Option String} {signal : Signal} {left : List Signal}
      {via : RelayKey} :
      (d i).dance = .publishing off (signal :: left) →
      (d i).st.signalingRelay (id i.other) = some via →
      DuetStep d (update d i { d i with
        st := (d i).st.pushSignalOutbound via (id i.other) (signalPrefix :: encode signal)
        dance := .publishing off left
        published := (d i).published ++ [signal] })
  | consume {d : Duet} {i : Side} {off : Option String} :
      (d i).dance = .publishing off [] →
      DuetStep d (update d i { d i with dance := .consuming off .new })
  /-- The pump sends the first datagram of the queue. -/
  | send {d : Duet} {i : Side} {via : RelayKey} {payload : Bytes} {conn : RelayConn}
      {rest : List (RelayKey × EndpointId × Bytes)} :
      (d i).st.relayOutbound = (via, id i.other, payload) :: rest →
      (d i).st.relayPool.lookup via = some conn →
      DuetStep d (update (update d i { d i with st := { (d i).st with relayOutbound := rest } })
        i.other { d i.other with wire := (d i.other).wire ++ [payload] })
  /-- A receive of the pump resolves with a signal. -/
  | deliver {d : Duet} {i : Side} {payload : Bytes} {rest : List Bytes} {st : State}
      {spawn : Bool} :
      (d i).wire = payload :: rest → isSignal payload = true →
      (d i).st.handleSignal (key i) (id i.other) payload.tail = (st, spawn) →
      DuetStep d (update d i { d i with
        st := st
        dance := if spawn then .expecting else (d i).dance
        wire := rest })
  | hear {d : Duet} {i : Side} {started now : Instant} {st : State} {payload : Bytes} :
      (d i).dance.awaits = true →
      (d i).st.nextSignalCheck (id i.other) started now = (st, some (.ok payload)) →
      DuetStep d (update d i ((d i).hear (id i.other) st payload
        ((d i).dance.hear decode (fun _ _ => none) answer payload)))

/-- Two endpoints that nothing disturbs. -/
def duet : System Duet where
  init := Set.univ
  step := DuetStep id key encode decode answer

end Duet

/-! ## The negotiation of the endpoints -/

/-- The signal that a datagram carries. -/
def signalOf (payload : Bytes) : Option Bytes :=
  if isSignal payload then some payload.tail else none

/-- The signal to `peer` that a queued datagram carries. -/
def signalTo (peer : EndpointId) (item : RelayKey × EndpointId × Bytes) : Option Bytes :=
  if item.2.1 = peer then signalOf item.2.2 else none

/-- The side of an endpoint. -/
def Dancer.party (p : Dancer) (peer : EndpointId) : Party where
  dance := p.dance
  queue := p.st.relayOutbound.filterMap (signalTo peer)
  wire := p.wire.filterMap signalOf
  inbox := (p.st.signalInboxes.lookup peer).getD []
  taken := p.taken
  heard := p.heard
  published := p.published

/-- The negotiation of two endpoints. -/
def Duet.negotiation (id : Side → EndpointId) (d : Duet) : Negotiation :=
  fun i => (d i).party (id i.other)

/-- An endpoint that is open, and has the relay in its pool. It signals to the other one only. -/
structure Dancer.Ready (peer : EndpointId) (key : RelayKey) (p : Dancer) : Prop where
  enabled : p.st.webrtcEnabled = true
  open_ : p.st.closed = false
  relay : ∃ conn, p.st.relayPool.lookup key = some conn
  /-- The slot of the other endpoint is taken while there is a dance. -/
  vacant : p.dance = .vacant → p.st.signaling.lookup peer = none
  slot : p.dance ≠ .vacant → p.st.signaling.lookup peer = some key
  queue : ∀ item ∈ p.st.relayOutbound, item.1 = key ∧ item.2.1 = peer ∧ isSignal item.2.2 = true
  wire : ∀ payload ∈ p.wire, isSignal payload = true

/-- Both endpoints are. -/
def Duet.Ready (id : Side → EndpointId) (key : Side → RelayKey) (d : Duet) : Prop :=
  ∀ i, (d i).Ready (id i.other) (key i)

section Bisimulation

variable {id : Side → EndpointId} {key : Side → RelayKey} {encode : Signal → Bytes}
  {decode : Bytes → Option Signal} {answer : Publication} {d d' : Duet} {i : Side}

@[simp] theorem signalOf_cons (json : Bytes) : signalOf (signalPrefix :: json) = some json := rfl

theorem signalOf_eq {payload : Bytes} (h : isSignal payload = true) :
    signalOf payload = some payload.tail :=
  if_pos h

@[simp] theorem signalTo_self (via : RelayKey) (peer : EndpointId) (payload : Bytes) :
    signalTo peer (via, peer, payload) = signalOf payload :=
  if_pos rfl

theorem Duet.negotiation_update (id : Side → EndpointId) (d : Duet) (i : Side) (p : Dancer) :
    Duet.negotiation id (update d i p) =
      update (Duet.negotiation id d) i (p.party (id i.other)) := by
  ext j
  rcases i.eq_or_eq_other j with rfl | rfl <;> simp [Duet.negotiation]

/-- The first datagram of a queue is sent. -/
theorem Duet.negotiation_send (id : Side → EndpointId) (d : Duet) (i : Side) (payload : Bytes)
    (rest : List (RelayKey × EndpointId × Bytes)) :
    Duet.negotiation id (update
        (update d i { d i with st := { (d i).st with relayOutbound := rest } })
        i.other { d i.other with wire := (d i.other).wire ++ [payload] }) =
      update (update (Duet.negotiation id d) i { Duet.negotiation id d i with
          queue := rest.filterMap (signalTo (id i.other)) })
        i.other { Duet.negotiation id d i.other with
          wire := (Duet.negotiation id d i.other).wire ++ (signalOf payload).toList } := by
  rw [Duet.negotiation_update, Duet.negotiation_update]
  cases h : signalOf payload <;> simp [Dancer.party, Duet.negotiation, h]

/-- A step of one endpoint. -/
theorem Duet.ready_update (h : d.Ready id key) {p : Dancer}
    (hp : p.Ready (id i.other) (key i)) : Duet.Ready id key (update d i p) :=
  (forall_update_iff d fun j (p : Dancer) => p.Ready (id j.other) (key j)).2 ⟨hp, fun j _ => h j⟩

/-- The slot of the other endpoint is taken while there is a dance. -/
def Dancer.Slotted (peer : EndpointId) (p : Dancer) : Prop :=
  p.dance = .vacant ↔ p.st.signaling.lookup peer = none

theorem Dancer.Ready.slotted {p : Dancer} {peer : EndpointId} {k : RelayKey}
    (h : p.Ready peer k) : p.Slotted peer := by
  refine ⟨h.vacant, fun hnone => ?_⟩
  by_contra hv
  rw [h.slot hv] at hnone
  cases hnone

/-- All it has to send are signals. -/
theorem Dancer.Ready.party_queue {p : Dancer} {peer : EndpointId} {k : RelayKey}
    (h : p.Ready peer k) :
    (p.party peer).queue = p.st.relayOutbound.map fun item => item.2.2.tail := by
  rw [← List.filterMap_eq_map]
  refine List.filterMap_congr fun item hitem => ?_
  obtain ⟨-, hpeer, hsignal⟩ := h.queue item hitem
  rw [signalTo, if_pos hpeer, signalOf_eq hsignal]
  rfl

/-- All that comes are signals. -/
theorem Dancer.Ready.party_wire {p : Dancer} {peer : EndpointId} {k : RelayKey}
    (h : p.Ready peer k) : (p.party peer).wire = p.wire.map List.tail := by
  rw [← List.filterMap_eq_map]
  exact List.filterMap_congr fun payload hpayload => signalOf_eq (h.wire payload hpayload)

/-- How an open endpoint handles a signal. -/
theorem State.handleSignal_open {s : State} (henabled : s.webrtcEnabled = true)
    (hopen : s.closed = false) (k : RelayKey) (peer : EndpointId) (payload : Bytes) :
    s.handleSignal k peer payload =
      ({ s with
        signaling := if (s.signaling.lookup peer).isNone then s.signaling.insert peer k
          else s.signaling
        signalInboxes := s.signalInboxes.insert peer
          (if ((s.signalInboxes.lookup peer).getD []).length < inboxCap
            then (s.signalInboxes.lookup peer).getD [] ++ [payload]
            else (s.signalInboxes.lookup peer).getD [])
        waiters := [] }, (s.signaling.lookup peer).isNone) := by
  rw [handleSignal, if_neg (by simp [henabled, hopen])]
  cases s.signaling.lookup peer <;> rfl

/-- It has spawned an answerer if there was no dance. -/
theorem Dancer.Slotted.roused {p : Dancer} {peer : EndpointId} (h : p.Slotted peer) :
    (if (p.st.signaling.lookup peer).isNone then .expecting else p.dance) = p.dance.roused := by
  by_cases hv : p.dance = .vacant
  · rw [h.1 hv, hv]
    rfl
  · obtain ⟨k, hk⟩ := Option.ne_none_iff_exists'.1 (mt h.2 hv)
    rw [hk, if_neg nofun, Dance.roused.eq_def]
    split
    · next heq => exact absurd heq hv
    · rfl

section Deliver

variable {p : Dancer} {peer : EndpointId} (henabled : p.st.webrtcEnabled = true)
  (hopen : p.st.closed = false)
include henabled hopen

/-- It has filed the signal. -/
theorem Dancer.party_file (h : p.Slotted peer) (k : RelayKey) (payload : Bytes)
    (rest : List Bytes) :
    Dancer.party { p with
      st := (p.st.handleSignal k peer payload).1
      dance := if (p.st.handleSignal k peer payload).2 then .expecting else p.dance
      wire := rest } peer =
      Party.file { p.party peer with wire := rest.filterMap signalOf } payload := by
  rw [State.handleSignal_open henabled hopen, h.roused]
  simp only [Dancer.party, Party.file, AList.lookup_insert, Option.getD_some]
  rfl

/-- The slot is taken then. -/
theorem Dancer.Slotted.file (h : p.Slotted peer) (k : RelayKey) (payload : Bytes)
    (rest : List Bytes) :
    Dancer.Slotted peer { p with
      st := (p.st.handleSignal k peer payload).1
      dance := if (p.st.handleSignal k peer payload).2 then .expecting else p.dance
      wire := rest } := by
  rw [State.handleSignal_open henabled hopen, h.roused, Slotted]
  refine iff_of_false p.dance.roused_cases.1 ?_
  cases hl : p.st.signaling.lookup peer <;> simp [hl]

end Deliver

/-- It stays ready. -/
theorem Dancer.Ready.file {p : Dancer} {peer : EndpointId} {k : RelayKey} (h : p.Ready peer k)
    {payload : Bytes} {rest : List Bytes} (hw : p.wire = payload :: rest) :
    Dancer.Ready peer k { p with
      st := (p.st.handleSignal k peer payload.tail).1
      dance := if (p.st.handleSignal k peer payload.tail).2 then .expecting else p.dance
      wire := rest } := by
  have hwire := h.wire
  rw [hw, List.forall_mem_cons] at hwire
  rw [State.handleSignal_open h.enabled h.open_, h.slotted.roused]
  refine ⟨h.enabled, h.open_, h.relay, fun hv => absurd hv p.dance.roused_cases.1, fun _ => ?_,
    h.queue, hwire.2⟩
  by_cases hv : p.dance = .vacant
  · simp [h.vacant hv]
  · simp [h.slot hv]

/-- A signal of the endpoint is queued. -/
theorem Dancer.party_publish (p : Dancer) (peer : EndpointId) (via : RelayKey) (json : Bytes)
    (dance : Dance) (published : List Signal) :
    Dancer.party { p with
      st := p.st.pushSignalOutbound via peer (signalPrefix :: json)
      dance := dance
      published := published } peer =
    { p.party peer with
      dance := dance
      queue := (p.party peer).queue ++ [json]
      published := published } := by
  simp [Dancer.party, State.pushSignalOutbound, State.kickPump]

/-- A dance takes the first signal of its inbox. -/
theorem Dancer.party_hear (p : Dancer) (peer : EndpointId) (payload : Bytes) (rest : List Bytes)
    (dance : Dance) :
    (p.hear peer { p.st with signalInboxes := p.st.signalInboxes.insert peer rest } payload
      dance).party peer = (p.party peer).hear payload rest dance := by
  cases dance with
  | vacant =>
    simp [Dancer.hear, Dancer.party, Party.hear, Party.take, Party.vacate, State.endSignaling]
  | _ => simp [Dancer.hear, Dancer.party, Party.hear, Party.take]

/-- The endpoint after that. -/
theorem Dancer.Ready.hear {p : Dancer} {peer : EndpointId} {k : RelayKey} (h : p.Ready peer k)
    (haw : p.dance.awaits = true) (inboxes : Table EndpointId (List Bytes)) (payload : Bytes)
    (dance : Dance) :
    (p.hear peer { p.st with signalInboxes := inboxes } payload dance).Ready peer k := by
  have hslot : p.st.signaling.lookup peer = some k := h.slot fun hv => by
    rw [hv] at haw
    cases haw
  cases dance with
  | vacant =>
    exact ⟨h.enabled, h.open_, h.relay, fun _ => AList.lookup_erase _ _, fun hne => absurd rfl hne,
      h.queue, h.wire⟩
  | _ => exact ⟨h.enabled, h.open_, h.relay, nofun, fun _ => hslot, h.queue, h.wire⟩

/-- The endpoints follow their negotiation. -/
theorem DuetStep.advance (h : d.Ready id key)
    (hst : DuetStep id key encode decode answer d d') :
    d'.Ready id key ∧ Advance encode decode (fun _ _ => none) answer (d.negotiation id)
      (d'.negotiation id) := by
  cases hst with
  | @publish i off signal left via hd hvia =>
    have hi := h i
    have hkey : via = key i := by
      rw [State.signalingRelay, hi.slot (by rw [hd]; exact nofun)] at hvia
      exact (Option.some.inj hvia).symm
    constructor
    · refine Duet.ready_update h ⟨hi.enabled, hi.open_, hi.relay, nofun, fun _ => ?_, ?_, hi.wire⟩
      · exact hi.slot (by rw [hd]; exact nofun)
      · simp only [State.pushSignalOutbound, State.kickPump, List.forall_mem_append,
          List.forall_mem_singleton]
        exact ⟨hi.queue, hkey, trivial, rfl⟩
    · rw [Duet.negotiation_update, Dancer.party_publish]
      exact @Advance.publish encode decode (fun _ _ => none) answer (d.negotiation id) i off signal
        left hd
  | @consume i off hd =>
    have hi := h i
    constructor
    · exact Duet.ready_update h ⟨hi.enabled, hi.open_, hi.relay, nofun,
        fun _ => hi.slot (by rw [hd]; exact nofun), hi.queue, hi.wire⟩
    · rw [Duet.negotiation_update]
      exact @Advance.consume encode decode (fun _ _ => none) answer (d.negotiation id) i off hd
  | @send i via payload conn rest hq hk =>
    have hi := h i
    have hother := h i.other
    have hqueue := hi.queue
    rw [hq, List.forall_mem_cons] at hqueue
    constructor
    · refine Duet.ready_update (Duet.ready_update h ?_) ?_
      · exact ⟨hi.enabled, hi.open_, hi.relay, hi.vacant, hi.slot, hqueue.2, hi.wire⟩
      · refine ⟨hother.enabled, hother.open_, hother.relay, hother.vacant, hother.slot,
          hother.queue, List.forall_mem_append.2 ⟨hother.wire, ?_⟩⟩
        exact List.forall_mem_singleton.2 hqueue.1.2.2
    · have hstep := @Advance.send encode decode (fun _ _ => none) answer (d.negotiation id) i
        payload.tail (rest.filterMap (signalTo (id i.other)))
        (by simp [Duet.negotiation, Dancer.party, hq, signalOf_eq hqueue.1.2.2])
      rwa [Duet.negotiation_send, signalOf_eq hqueue.1.2.2]
  | @deliver i payload rest st spawn hw hsignal hhandle =>
    have hi := h i
    have hfile := hi.file hw
    have hparty := Dancer.party_file hi.enabled hi.open_ hi.slotted (key i) payload.tail rest
    rw [hhandle] at hfile hparty
    refine ⟨Duet.ready_update h hfile, ?_⟩
    rw [Duet.negotiation_update, hparty]
    exact @Advance.deliver encode decode (fun _ _ => none) answer (d.negotiation id) i payload.tail
      (rest.filterMap signalOf) (by simp [Duet.negotiation, Dancer.party, hw, signalOf_eq hsignal])
  | @hear i started now st payload haw hcheck =>
    have hi := h i
    obtain ⟨payload', rest, heq, hl, rfl⟩ | ⟨-, hno | ⟨_, _, -, hno⟩⟩ :=
      State.nextSignalCheck_cases hcheck
    · cases heq
      refine ⟨Duet.ready_update h (hi.hear haw _ _ _), ?_⟩
      rw [Duet.negotiation_update, Dancer.party_hear]
      exact @Advance.hear encode decode (fun _ _ => none) answer (d.negotiation id) i payload rest
        haw (by simp [Duet.negotiation, Dancer.party, hl])
    · cases hno
    · cases hno

/-- A step of the negotiation is one of the endpoints. -/
theorem DuetStep.of_advance (h : d.Ready id key) {n : Negotiation}
    (hst : Advance encode decode (fun _ _ => none) answer (d.negotiation id) n) :
    ∃ d', DuetStep id key encode decode answer d d' ∧ d'.negotiation id = n := by
  cases hst with
  | @publish i off signal left hd =>
    have hslot := (h i).slot fun hv => nomatch hv.symm.trans hd
    refine ⟨_, .publish hd hslot, ?_⟩
    rw [Duet.negotiation_update, Dancer.party_publish]
    rfl
  | @consume i off hd =>
    refine ⟨_, .consume hd, ?_⟩
    rw [Duet.negotiation_update]
    rfl
  | @send i payload rest hq =>
    obtain ⟨item, items, hitems, rfl, rfl⟩ :=
      List.map_eq_cons_iff.1 ((h i).party_queue.symm.trans hq)
    obtain ⟨via, peer, datagram⟩ := item
    have hqueue := (h i).queue
    rw [hitems, List.forall_mem_cons] at hqueue
    obtain ⟨⟨rfl, rfl, hsignal⟩, hrest⟩ := hqueue
    obtain ⟨conn, hconn⟩ := (h i).relay
    refine ⟨_, .send hitems hconn, ?_⟩
    have hqueue := (h i).party_queue
    simp only [Dancer.party, hitems, List.filterMap_cons, signalTo_self, signalOf_eq hsignal,
      List.map_cons, List.cons.injEq, true_and] at hqueue
    rw [Duet.negotiation_send, signalOf_eq hsignal, hqueue]
    rfl
  | @deliver i payload rest hw =>
    obtain ⟨datagram, datagrams, hdatagrams, rfl, rfl⟩ :=
      List.map_eq_cons_iff.1 ((h i).party_wire.symm.trans hw)
    have hwire := (h i).wire
    rw [hdatagrams, List.forall_mem_cons] at hwire
    refine ⟨_, .deliver hdatagrams hwire.1 Prod.mk.eta.symm, ?_⟩
    rw [Duet.negotiation_update, Dancer.party_file (h i).enabled (h i).open_ (h i).slotted,
      List.filterMap_congr fun payload hpayload => signalOf_eq (hwire.2 payload hpayload),
      List.filterMap_eq_map']
    rfl
  | @hear i payload rest haw hin =>
    have hl : (d i).st.signalInboxes.lookup (id i.other) = some (payload :: rest) := by
      cases hl : (d i).st.signalInboxes.lookup (id i.other) <;>
        simp_all [Duet.negotiation, Dancer.party]
    refine ⟨_, .hear haw (@State.nextSignalCheck_cons _ 0 0 payload rest _ (h i).open_ hl), ?_⟩
    rw [Duet.negotiation_update, Dancer.party_hear]
    rfl

/-- **Two open endpoints on a relay negotiate**, step by step. -/
theorem duet_bisimulation :
    Bisimulation (duet id key encode decode answer) (undisturbed encode decode answer)
      (Duet.negotiation id) (Duet.Ready id key) where
  step _ _ h hst := hst.advance h
  lift _ _ h hst := DuetStep.of_advance h hst

/-! ## What it comes to -/

/-- An open endpoint with the relay in its pool, that has nothing to send and no session with
    `peer`. -/
structure State.Fresh (peer : EndpointId) (key : RelayKey) (s : State) : Prop where
  enabled : s.webrtcEnabled = true
  open_ : s.closed = false
  relay : ∃ conn, s.relayPool.lookup key = some conn
  queue : s.relayOutbound = []
  slot : s.signaling.lookup peer = none
  inbox : s.signalInboxes.lookup peer = none

/-- Before it signals, an endpoint is ready, -/
theorem State.Fresh.ready {peer : EndpointId} {k : RelayKey} {st : State} (h : st.Fresh peer k) :
    (⟨st, .vacant, [], [], [], []⟩ : Dancer).Ready peer k := by
  refine ⟨h.enabled, h.open_, h.relay, fun _ => h.slot, fun hv => absurd rfl hv, ?_, nofun⟩
  rw [h.queue]
  exact nofun

/-- and so it is when it has claimed the slot of the other one to offer. -/
theorem State.Fresh.begin {peer : EndpointId} {k : RelayKey} {st st' : State} (h : st.Fresh peer k)
    (hbegin : st.beginSignaling peer k = .ok st') (offer : Publication) :
    (⟨st', .publishing none (offer.signals .offerer), [], [], [], []⟩ : Dancer).Ready peer k ∧
      st'.relayOutbound = [] ∧ st'.signalInboxes.lookup peer = none := by
  obtain ⟨-, rfl⟩ := beginSignaling_eq hbegin
  refine ⟨⟨h.enabled, h.open_, h.relay, nofun, fun _ => AList.lookup_insert _, ?_, nofun⟩, h.queue,
    h.inbox⟩
  rw [h.queue]
  exact nofun

/-- The left endpoint begins to offer, and the right one has no session. -/
def Duet.offering (left right : State) (offer : Publication) : Duet
  | .left => ⟨left, .publishing none (offer.signals .offerer), [], [], [], []⟩
  | .right => ⟨right, .vacant, [], [], [], []⟩

/-- **An offer leads to an agreement** of the endpoints if and only if the signals of either fit
    into an inbox. -/
theorem duet_agrees_iff {offer : Publication} {left left' right : State}
    (hleft : left.Fresh (id .right) (key .left)) (hright : right.Fresh (id .left) (key .right))
    (hbegin : left.beginSignaling (id .right) (key .left) = .ok left')
    (hcodec : Codec encode decode offer answer) :
    (duet id key encode decode answer).Inevitable (fun d => Agreed offer answer (d.negotiation id))
        (Duet.offering left' right offer) ↔
      offer.candidates.length + 3 ≤ inboxCap ∧ answer.candidates.length + 3 ≤ inboxCap := by
  obtain ⟨hready, hqueue, hinbox⟩ := hleft.begin hbegin offer
  have hstart : (Duet.offering left' right offer).Ready id key :=
    (Side.forall_iff .left).2 ⟨hready, hright.ready⟩
  have hoffering : (Duet.offering left' right offer).negotiation id =
      Negotiation.offering offer := by
    ext i
    cases i
    · simp [Duet.negotiation, Duet.offering, Negotiation.offering, Dancer.party, Party.new, hqueue,
        hinbox]
    · simp [Duet.negotiation, Duet.offering, Negotiation.offering, Dancer.party, Party.new,
        hright.queue, hright.inbox]
  rw [duet_bisimulation.inevitable_iff hstart, hoffering]
  exact negotiation_agrees_iff hcodec

/-- An endpoint that was just bound. -/
theorem bound_fresh (peer : EndpointId) :
    (State.bound true "https://home.example").Fresh peer homeRelay :=
  ⟨rfl, rfl, ⟨⟨0⟩, rfl⟩, rfl, rfl, rfl⟩

/-- The identities of two endpoints. -/
def Side.plainId : Side → EndpointId
  | left => Vector.replicate 32 7
  | right => Vector.replicate 32 9

/-- An endpoint that was just bound, with a session with `peer`. -/
def State.signalingTo (peer : EndpointId) : State :=
  { State.bound true "https://home.example" with signaling := AList.insert peer homeRelay ∅ }

/-- With one candidate on either side, they agree. -/
theorem duet_agrees_plain :
    (duet Side.plainId (fun _ => homeRelay) Signal.json Signal.ofPeer .plain).Inevitable
      (fun d => Agreed .plain .plain (d.negotiation Side.plainId))
      (Duet.offering (State.signalingTo (Side.plainId .right))
        (State.bound true "https://home.example") .plain) := by
  have hcodec : Codec Signal.json Signal.ofPeer .plain .plain := by
    intro i signal h
    cases i
    · exact Signal.ofPeer_json .offerer signal h
    · exact Signal.ofPeer_json .answerer signal h
  exact (@duet_agrees_iff Side.plainId (fun _ => homeRelay) _ _ _ .plain _ _ _ (bound_fresh _)
    (bound_fresh _) rfl hcodec).2 ⟨by decide, by decide⟩

/-- Both endpoints begin to offer. -/
def Duet.glaring (st : Side → State) (offer : Side → Publication) : Duet :=
  fun i => ⟨st i, .publishing none ((offer i).signals .offerer), [], [], [], []⟩

/-- The slots of both endpoints are free, and nothing is on its way. -/
def Duet.Apart (id : Side → EndpointId) (d : Duet) : Prop :=
  ∀ i, (d i).st.signaling.lookup (id i.other) = none ∧ (d i).st.relayOutbound = [] ∧ (d i).wire = []

/-- **Two offers of the endpoints that meet** come to nothing: in the end both slots are free, and
    neither session has ever gone on from the signaling. -/
theorem duet_glares {offer : Side → Publication} {st st' : Side → State}
    (hfresh : ∀ i, (st i).Fresh (id i.other) (key i))
    (hbegin : ∀ i, (st i).beginSignaling (id i.other) (key i) = .ok (st' i))
    (hcodec : ∀ i, ∀ signal ∈ (offer i).signals .offerer, decode (encode signal) = some signal) :
    (duet id key encode decode answer).Inevitable (Duet.Apart id) (Duet.glaring st' offer) ∧
      ∀ d, (duet id key encode decode answer).Leads (Duet.glaring st' offer) d →
        ∀ i, (d i).dance.proceeded = none := by
  have hstart : (Duet.glaring st' offer).Ready id key :=
    fun i => ((hfresh i).begin (hbegin i) (offer i)).1
  have hglaring : (Duet.glaring st' offer).negotiation id = Negotiation.glaring offer := by
    ext i
    obtain ⟨-, hqueue, hinbox⟩ := (hfresh i).begin (hbegin i) (offer i)
    simp [Duet.negotiation, Duet.glaring, Negotiation.glaring, Dancer.party, Party.new, hqueue,
      hinbox]
  obtain ⟨hdissolved, hproceeded⟩ := @negotiation_glares encode decode offer answer hcodec
  constructor
  · rw [← hglaring, ← duet_bisimulation.inevitable_iff hstart] at hdissolved
    refine (hdissolved.and_invariant (fun d d' h hst => (hst.advance h).1) hstart).mono ?_
    rintro d ⟨hd, hready⟩ i
    obtain ⟨hvacant, hqueue, hwire, -⟩ := hd i
    rw [Duet.negotiation, (hready i).party_queue] at hqueue
    rw [Duet.negotiation, (hready i).party_wire] at hwire
    exact ⟨(hready i).vacant hvacant, List.map_eq_nil_iff.1 hqueue, List.map_eq_nil_iff.1 hwire⟩
  · intro d hl i
    have hnegotiation := (duet_bisimulation.leads hstart hl).2
    rw [hglaring] at hnegotiation
    exact hproceeded _ hnegotiation i

end Bisimulation

/-- With one candidate on either side, their offers come to nothing. -/
theorem duet_glares_plain :
    (duet Side.plainId (fun _ => homeRelay) Signal.json Signal.ofPeer .plain).Inevitable
        (Duet.Apart Side.plainId)
        (Duet.glaring (fun i => State.signalingTo (Side.plainId i.other)) fun _ => .plain) ∧
      ∀ d, (duet Side.plainId (fun _ => homeRelay) Signal.json Signal.ofPeer .plain).Leads
          (Duet.glaring (fun i => State.signalingTo (Side.plainId i.other)) fun _ => .plain) d →
        ∀ i, (d i).dance.proceeded = none :=
  duet_glares (fun _ => bound_fresh _) (fun _ => rfl)
    (fun _ signal h => Signal.ofPeer_json .offerer signal h)

end IrohEndpoint
