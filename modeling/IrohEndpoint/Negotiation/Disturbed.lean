import IrohEndpoint.Negotiation.Endpoints

/-!
# Two endpoints in the open

What may disturb the negotiation of two endpoints: the relay goes, or loses datagrams; an endpoint
is closed, dials again, or does something else in between; a dance fails, at its deadline or on an
error of its peer connection (`troubled`).

The slot of the other endpoint is taken exactly while there is a dance (`Dancer.Slotted`), hence
the endpoints still follow a negotiation, if a disturbed one (`troubled_simulation`): in every
run, an endpoint is given only what the other one has published (`duet_sound`).
-/

namespace IrohEndpoint

open Transition Function

/-- The endpoint has done something else than signaling to `peer`. -/
structure State.Spares (peer : EndpointId) (s s' : State) : Prop where
  slot : s'.signaling.lookup peer = s.signaling.lookup peer
  inbox : s'.signalInboxes.lookup peer = s.signalInboxes.lookup peer
  queue : s'.relayOutbound.filterMap (signalTo peer) = s.relayOutbound.filterMap (signalTo peer)

/-- The endpoint has no session with `peer`, and no signals to it or from it. -/
structure State.Silent (peer : EndpointId) (s : State) : Prop where
  slot : s.signaling.lookup peer = none
  inbox : s.signalInboxes.lookup peer = none
  queue : s.relayOutbound.filterMap (signalTo peer) = []

section Troubled

-- The identities of the endpoints.
variable (id : Side → EndpointId) (encode : Signal → Bytes) (decode : Bytes → Option Signal)

/-- What may disturb two endpoints. -/
inductive Trouble : Duet → Duet → Prop
  /-- The first datagram of the queue is lost: its relay is retired, or fails to send it. -/
  | drop {d : Duet} {i : Side} {item : RelayKey × EndpointId × Bytes}
      {rest : List (RelayKey × EndpointId × Bytes)} :
      (d i).st.relayOutbound = item :: rest →
      Trouble d (update d i { d i with st := { (d i).st with relayOutbound := rest } })
  /-- The relay loses a datagram. -/
  | lose {d : Duet} {i : Side} {before after : List Bytes} {payload : Bytes} :
      (d i).wire = before ++ payload :: after →
      Trouble d (update d i { d i with wire := before ++ after })
  /-- A signal comes through any relay, perhaps to an endpoint that is closed. -/
  | stray {d : Duet} {i : Side} {via : RelayKey} {payload : Bytes} {rest : List Bytes}
      {st : State} {spawn : Bool} :
      (d i).wire = payload :: rest → isSignal payload = true →
      (d i).st.handleSignal via (id i.other) payload.tail = (st, spawn) →
      Trouble d (update d i { d i with
        st := st
        dance := if spawn then .expecting else (d i).dance
        wire := rest })
  /-- The peer connection may refuse what it is given. -/
  | refuse {d : Duet} {i : Side} {refuses : List Remote → Remote → Option String}
      {answer : Publication} {started now : Instant} {st : State} {payload : Bytes} :
      (d i).dance.awaits = true →
      (d i).st.nextSignalCheck (id i.other) started now = (st, some (.ok payload)) →
      Trouble d (update d i ((d i).hear (id i.other) st payload
        ((d i).dance.hear decode refuses answer payload)))
  /-- A dance returns, and the session guard frees the slot. -/
  | leave {d : Duet} {i : Side} :
      (d i).dance ≠ .vacant →
      Trouble d (update d i { d i with
        st := (d i).st.endSignaling (id i.other)
        dance := .vacant
        taken := [] })
  /-- An offerer claims the slot. -/
  | begin {d : Duet} {i : Side} {via : RelayKey} {st : State} {offer : Publication} :
      (d i).dance = .vacant → (d i).st.beginSignaling (id i.other) via = .ok st →
      Trouble d (update d i { d i with
        st := st
        dance := .publishing none (offer.signals .offerer) })
  | other {d : Duet} {i : Side} {st : State} :
      (d i).st.Spares (id i.other) st → Trouble d (update d i { d i with st := st })

/-- Two endpoints that have not signaled to each other yet, and whatever they do. -/
def troubled : System Duet where
  init := {d | ∀ i, ∃ st : State, st.Silent (id i.other) ∧ d i = ⟨st, .vacant, [], [], [], []⟩}
  step d d' := (∃ key answer, DuetStep id key encode decode answer d d') ∨ Trouble id decode d d'

end Troubled

section Sound

variable {id : Side → EndpointId} {key : Side → RelayKey} {encode : Signal → Bytes}
  {decode : Bytes → Option Signal} {answer : Publication} {d d' : Duet} {i : Side}

/-- The slots of both endpoints. -/
def Duet.Slotted (id : Side → EndpointId) (d : Duet) : Prop :=
  ∀ i, (d i).Slotted (id i.other)

theorem Duet.slotted_update (h : d.Slotted id) {p : Dancer} (hp : p.Slotted (id i.other)) :
    Duet.Slotted id (update d i p) :=
  (forall_update_iff d fun j (p : Dancer) => p.Slotted (id j.other)).2 ⟨hp, fun j _ => h j⟩

/-- The slot while a dance takes a signal. -/
theorem Dancer.Slotted.hear {p : Dancer} {peer : EndpointId} (h : p.Slotted peer)
    (haw : p.dance.awaits = true) (inboxes : Table EndpointId (List Bytes)) (payload : Bytes)
    (dance : Dance) :
    (p.hear peer { p.st with signalInboxes := inboxes } payload dance).Slotted peer := by
  have hslot : p.st.signaling.lookup peer ≠ none := fun hnone => by
    rw [h.2 hnone] at haw
    cases haw
  cases dance with
  | vacant => exact iff_of_true rfl (AList.lookup_erase _ _)
  | _ => exact iff_of_false nofun hslot

/-- A dance returns. -/
theorem Dancer.party_leave (p : Dancer) (peer : EndpointId) :
    Dancer.party { p with
      st := p.st.endSignaling peer
      dance := .vacant
      taken := [] } peer = (p.party peer).vacate := by
  simp [Dancer.party, Party.vacate, State.endSignaling]

/-- A dance takes a signal, -/
theorem follows_hear (h : d.Slotted id) {refuses : List Remote → Remote → Option String}
    {started now : Instant} {st : State} {payload : Bytes} (haw : (d i).dance.awaits = true)
    (hcheck : (d i).st.nextSignalCheck (id i.other) started now = (st, some (.ok payload))) :
    Duet.Slotted id (update d i ((d i).hear (id i.other) st payload
        ((d i).dance.hear decode refuses answer payload))) ∧
      Advance encode decode refuses answer (d.negotiation id)
        (Duet.negotiation id (update d i ((d i).hear (id i.other) st payload
          ((d i).dance.hear decode refuses answer payload)))) := by
  obtain ⟨payload', rest, heq, hl, rfl⟩ | ⟨-, hno | ⟨_, _, -, hno⟩⟩ :=
    State.nextSignalCheck_cases hcheck
  · cases heq
    refine ⟨Duet.slotted_update h ((h i).hear haw _ _ _), ?_⟩
    rw [Duet.negotiation_update, Dancer.party_hear]
    exact @Advance.hear encode decode refuses answer (d.negotiation id) i payload rest
      haw (by simp [Duet.negotiation, Dancer.party, hl])
  · cases hno
  · cases hno

/-- and a signal that comes is filed, unless the endpoint is closed or has no use for signals. -/
theorem follows_signal (h : d.Slotted id) {via : RelayKey} {payload : Bytes}
    {rest : List Bytes} {st : State} {spawn : Bool} (hw : (d i).wire = payload :: rest)
    (hsignal : isSignal payload = true)
    (hhandle : (d i).st.handleSignal via (id i.other) payload.tail = (st, spawn)) :
    Duet.Slotted id (update d i { d i with
        st := st
        dance := if spawn then .expecting else (d i).dance
        wire := rest }) ∧
      (negotiation encode decode).step (d.negotiation id) (Duet.negotiation id (update d i { d i with
        st := st
        dance := if spawn then .expecting else (d i).dance
        wire := rest })) := by
  have hwire : (d.negotiation id i).wire = payload.tail :: rest.filterMap signalOf := by
    simp [Duet.negotiation, Dancer.party, hw, signalOf_eq hsignal]
  by_cases hguard : !(d i).st.webrtcEnabled || (d i).st.closed
  · rw [State.handleSignal, if_pos hguard] at hhandle
    cases hhandle
    refine ⟨Duet.slotted_update h (h i), .inr ?_⟩
    rw [Duet.negotiation_update]
    exact @Disturb.lose (d.negotiation id) i [] _ payload.tail hwire
  · obtain ⟨henabled, hopen⟩ : (d i).st.webrtcEnabled = true ∧ (d i).st.closed = false := by
      simpa using hguard
    have hslotted := (h i).file henabled hopen via payload.tail rest
    have hparty := Dancer.party_file henabled hopen (h i) via payload.tail rest
    rw [hhandle] at hslotted hparty
    refine ⟨Duet.slotted_update h hslotted, .inl ⟨fun _ _ => none, ⟨"", []⟩, ?_⟩⟩
    rw [Duet.negotiation_update, hparty]
    exact @Advance.deliver encode decode _ _ (d.negotiation id) i payload.tail _ hwire

/-- A step of the endpoints is one of the negotiation, unless it carries no signal. -/
theorem DuetStep.follows (h : d.Slotted id) (hst : DuetStep id key encode decode answer d d') :
    d'.Slotted id ∧ (negotiation encode decode).Leads (d.negotiation id) (d'.negotiation id) := by
  cases hst with
  | @publish i off signal left via hd hvia =>
    have hvacant : (d i).dance ≠ .vacant := by
      rw [hd]
      exact nofun
    constructor
    · exact Duet.slotted_update h (iff_of_false nofun (mt (h i).2 hvacant))
    · refine .single (.inl ⟨fun _ _ => none, answer, ?_⟩)
      rw [Duet.negotiation_update, Dancer.party_publish]
      exact @Advance.publish encode decode _ _ (d.negotiation id) i off signal left hd
  | @consume i off hd =>
    have hvacant : (d i).dance ≠ .vacant := by
      rw [hd]
      exact nofun
    constructor
    · exact Duet.slotted_update h (iff_of_false nofun (mt (h i).2 hvacant))
    · refine .single (.inl ⟨fun _ _ => none, answer, ?_⟩)
      rw [Duet.negotiation_update]
      exact @Advance.consume encode decode _ _ (d.negotiation id) i off hd
  | @send i via payload conn rest hq hk =>
    constructor
    · refine Duet.slotted_update (Duet.slotted_update h ?_) ?_
      · exact h i
      · exact h i.other
    · rw [Duet.negotiation_send]
      cases hsignal : signalOf payload with
      | none =>
        -- A datagram for noq: the negotiation does not see it.
        have hqueue : rest.filterMap (signalTo (id i.other)) = (d.negotiation id i).queue := by
          simp [Duet.negotiation, Dancer.party, hq, hsignal]
        refine .of_eq ?_
        rw [hqueue, Option.toList_none, List.append_nil]
        simp
      | some json =>
        refine .single (.inl ⟨fun _ _ => none, answer, ?_⟩)
        exact @Advance.send encode decode _ _ (d.negotiation id) i json _
          (by simp [Duet.negotiation, Dancer.party, hq, hsignal])
  | deliver hw hsignal hhandle =>
    obtain ⟨hslotted, hstep⟩ := follows_signal h hw hsignal hhandle
    exact ⟨hslotted, .single hstep⟩
  | hear haw hcheck =>
    obtain ⟨hslotted, hstep⟩ := follows_hear h haw hcheck
    exact ⟨hslotted, .single (.inl ⟨_, _, hstep⟩)⟩

/-- Whatever disturbs the endpoints may disturb their negotiation. -/
theorem Trouble.follows (h : d.Slotted id) (hst : Trouble id decode d d') :
    d'.Slotted id ∧ (negotiation encode decode).Leads (d.negotiation id) (d'.negotiation id) := by
  cases hst with
  | @drop i item rest hq =>
    refine ⟨Duet.slotted_update h (h i), ?_⟩
    rw [Duet.negotiation_update]
    cases hsignal : signalTo (id i.other) item with
    | none =>
      refine .of_eq (update_eq_self_iff.2 ?_)
      simp [Duet.negotiation, Dancer.party, hq, hsignal]
    | some json =>
      refine .single (.inr ?_)
      exact @Disturb.drop (d.negotiation id) i [] _ json
        (by simp [Duet.negotiation, Dancer.party, hq, hsignal])
  | @lose i before after payload hw =>
    refine ⟨Duet.slotted_update h (h i), ?_⟩
    rw [Duet.negotiation_update]
    cases hsignal : signalOf payload with
    | none =>
      refine .of_eq (update_eq_self_iff.2 ?_)
      simp [Duet.negotiation, Dancer.party, hw, hsignal]
    | some json =>
      have hlose := @Disturb.lose (d.negotiation id) i (before.filterMap signalOf)
        (after.filterMap signalOf) json (by simp [Duet.negotiation, Dancer.party, hw, hsignal])
      rw [← List.filterMap_append] at hlose
      exact .single (.inr hlose)
  | stray hw hsignal hhandle =>
    obtain ⟨hslotted, hstep⟩ := follows_signal h hw hsignal hhandle
    exact ⟨hslotted, .single hstep⟩
  | refuse haw hcheck =>
    obtain ⟨hslotted, hstep⟩ := follows_hear h haw hcheck
    exact ⟨hslotted, .single (.inl ⟨_, _, hstep⟩)⟩
  | @leave i hvacant =>
    constructor
    · exact Duet.slotted_update h (iff_of_true rfl (AList.lookup_erase _ _))
    · rw [Duet.negotiation_update, Dancer.party_leave]
      exact .single (.inr (@Disturb.leave (d.negotiation id) i hvacant))
  | @begin i via st offer hvacant hbegin =>
    obtain ⟨-, rfl⟩ := State.beginSignaling_eq hbegin
    constructor
    · refine Duet.slotted_update h (iff_of_false ?_ ?_) <;> simp
    · rw [Duet.negotiation_update]
      exact .single (.inr (@Disturb.begin (d.negotiation id) i offer hvacant))
  | @other i st hspares =>
    constructor
    · exact Duet.slotted_update h ((h i).trans (by rw [hspares.slot]))
    · refine .of_eq ?_
      rw [Duet.negotiation_update, update_eq_self_iff, Duet.negotiation]
      simp [Dancer.party, hspares.queue, hspares.inbox]

/-- The slots are taken as the dances want it, -/
theorem troubled_slotted (hd : (troubled id encode decode).Reachable d) : d.Slotted id := by
  refine hd.invariant (P := Duet.Slotted id) ?_ ?_
  · intro d hinit i
    obtain ⟨st, hsilent, hi⟩ := hinit i
    rw [hi]
    exact iff_of_true rfl hsilent.slot
  · rintro d d' - (⟨key, answer, hst⟩ | hst) h
    · exact hst.follows h |>.1
    · exact (@Trouble.follows id encode decode d d' h hst).1

/-- and the endpoints negotiate. -/
theorem troubled_simulation :
    Simulation (troubled id encode decode) (negotiation encode decode) (Duet.negotiation id) where
  init d hinit := by
    ext i
    obtain ⟨st, hsilent, hi⟩ := hinit i
    simp [Duet.negotiation, hi, Dancer.party, Party.new, hsilent.queue, hsilent.inbox]
  step d d' hd _ hst := by
    rcases hst with ⟨key, answer, hst⟩ | hst
    · exact (hst.follows (troubled_slotted hd)).2
    · exact (hst.follows (troubled_slotted hd)).2

/-- **In every run**, an endpoint is given only what the other one has published. -/
theorem duet_sound (hd : (troubled id encode decode).Reachable d) :
    Honest encode decode (d.negotiation id) :=
  negotiation_sound (troubled_simulation.reachable hd)

end Sound

/-- The right endpoint has taken the offer of the left one. -/
theorem duet_sound_offer : ∃ d : Duet, (d .right).dance.offer = some "v=0" ∧
    Honest Signal.json Signal.ofPeer (d.negotiation Side.plainId) := by
  have hstart : (troubled Side.plainId Signal.json Signal.ofPeer).Reachable
      fun _ => ⟨State.bound true "https://home.example", .vacant, [], [], [], []⟩ :=
    .init fun _ => ⟨_, ⟨rfl, rfl, rfl⟩, rfl⟩
  have hbegin := hstart.step (.inr (@Trouble.begin Side.plainId Signal.ofPeer _ .left homeRelay
    (State.signalingTo (Side.plainId .right)) .plain rfl rfl))
  have hpublish := hbegin.step (.inl ⟨fun _ => homeRelay, .plain, @DuetStep.publish _ _ _ _ _ _
    .left none (.offer "v=0") Publication.plain.trickle homeRelay rfl rfl⟩)
  have hsend := hpublish.step (.inl ⟨fun _ => homeRelay, .plain, @DuetStep.send _ _ _ _ _ _
    .left homeRelay (signalPrefix :: Signal.offerJson) ⟨0⟩ [] rfl rfl⟩)
  have hdeliver := hsend.step (.inl ⟨fun _ => homeRelay, .plain, @DuetStep.deliver _ _ _ _ _ _
    .right (signalPrefix :: Signal.offerJson) [] _ _ rfl rfl rfl⟩)
  have hhear := hdeliver.step (.inl ⟨fun _ => homeRelay, .plain, @DuetStep.hear _ _ _ _ _ _
    .right 0 0 _ Signal.offerJson rfl rfl⟩)
  have hoffer : ∀ (p : Dancer) (peer : EndpointId) (st : State) (payload : Bytes),
      (p.hear peer st payload (Dance.hear Signal.ofPeer (fun _ _ => none) .plain .expecting
        Signal.offerJson)).dance.offer = some "v=0" := by
    have hdecode := Signal.ofPeer_json .offerer (.offer "v=0") List.mem_cons_self
    rw [Signal.json] at hdecode
    simp [Dance.hear, nextSignal, hdecode, Dancer.hear, Dance.offer]
  exact ⟨_, hoffer _ _ _ _, duet_sound hhear⟩

end IrohEndpoint
