import IrohEndpoint.Dial

/-!
# A negotiation

Two endpoints that negotiate a channel over a relay. Each side has a dance: it publishes the
signals of its peer connection, in the order of `dial` and of `answer_inner`, and consumes those
of the other side from an inbox that holds 64 of them at most. The relay delivers in order what
it does not lose. The steps a negotiation takes by itself are `Advance`; what may disturb it are
a lossy relay, dances that return, for instance at their deadline, new dances, and peer
connections that refuse what they are given (`negotiation`).

Whatever disturbs it, a side gives its peer connection only what the other side has published,
in that order and each at most once, answers no offer that the other side has not published, and
publishes no more answers than that has published offers (`negotiation_sound`).
-/

namespace IrohEndpoint

open Transition Function

/-! ## The dance -/

/-- The two endpoints. -/
inductive Side
  | left
  | right
  deriving DecidableEq

/-- The other endpoint. -/
def Side.other : Side → Side
  | left => right
  | right => left

@[simp] theorem Side.other_left : left.other = right := rfl

@[simp] theorem Side.other_right : right.other = left := rfl

@[simp] theorem Side.other_other (i : Side) : i.other.other = i := by cases i <;> rfl

@[simp] theorem Side.other_ne (i : Side) : i.other ≠ i := by cases i <;> nofun

@[simp] theorem Side.ne_other (i : Side) : i ≠ i.other := by cases i <;> nofun

/-- What holds of both sides. -/
theorem Side.forall_iff {P : Side → Prop} (i : Side) : (∀ j, P j) ↔ P i ∧ P i.other := by
  refine ⟨fun h => ⟨h i, h i.other⟩, fun ⟨h, h'⟩ j => ?_⟩
  cases i <;> cases j <;> assumption

/-- A candidate of a peer connection. -/
structure IceCandidate where
  candidate : String
  sdpMid : Option String
  sdpMlineIndex : Option UInt16

/-- What a peer connection has to publish: its description and its candidates. -/
structure Publication where
  sdp : String
  candidates : List IceCandidate

/-- The signal that publishes a description. -/
def Role.describe : Role → String → Signal
  | .offerer, sdp => .offer sdp
  | .answerer, sdp => .answer sdp

/-- The signal that publishes a candidate. -/
def IceCandidate.signal (c : IceCandidate) : Signal :=
  .candidate c.candidate c.sdpMid c.sdpMlineIndex

/-- What the other side gives its peer connection for it. -/
def IceCandidate.remote (c : IceCandidate) : Remote :=
  .iceCandidate c.candidate c.sdpMid c.sdpMlineIndex

namespace Publication

variable (p : Publication)

/-- The signals after the description. -/
def trickle : List Signal := p.candidates.map IceCandidate.signal ++ [.endOfCandidates, .done]

/-- The signals of a side, in the order in which it publishes them. -/
def signals (role : Role) : List Signal := role.describe p.sdp :: p.trickle

@[simp] theorem length_signals (role : Role) :
    (p.signals role).length = p.candidates.length + 3 := by
  simp [signals, trickle]

/-- What the candidates give the other side's peer connection. -/
def remotes : List Remote := p.candidates.map IceCandidate.remote

end Publication

/-- Where a side is in its dance. A dance of an answerer has taken an offer. -/
inductive Dance
  /-- There is no session: the slot of the other side is free. -/
  | vacant
  /-- An answerer awaits its offer. -/
  | expecting
  /-- Publishing what is left of its signals. -/
  | publishing (offer : Option String) (left : List Signal)
  /-- In `consume_signaling`, or past it. -/
  | consuming (offer : Option String) (c : Consumption)

namespace Dance

/-- It waits for a signal. -/
def awaits : Dance → Bool
  | expecting => true
  | consuming _ c => c.result.isNone
  | vacant | publishing _ _ => false

/-- A signal that finds no session spawns an answerer. -/
def roused : Dance → Dance
  | vacant => expecting
  | dance => dance

/-- With what it has gone on to `wait_connected`. -/
def proceeded : Dance → Option (Option String × List Remote)
  | consuming offer ⟨applied, some (.ok ())⟩ => some (offer, applied)
  | _ => none

-- `serde_json::from_slice`, how the peer connection refuses what it is given, and what an
-- answerer has to publish.
variable (decode : Bytes → Option Signal) (refuses : List Remote → Remote → Option String)
  (answer : Publication)

/-- How it goes on from a signal that it takes. A dance that fails gives up its slot. -/
def hear : Dance → Bytes → Dance
  | expecting, payload =>
    match nextSignal decode payload with
    | none => expecting
    | some (some (.offer sdp)) => publishing (some sdp) (answer.signals .answerer)
    | some _ => vacant
  | consuming offer c, payload =>
    match (c.take decode refuses payload).result with
    | some (.error _) => vacant
    | _ => consuming offer (c.take decode refuses payload)
  | dance, _ => dance

end Dance

/-! ## The negotiation -/

/-- One side: its endpoint, as far as the signals go, and the relay's way to it. -/
structure Party where
  dance : Dance
  /-- The signals that it has published and not sent yet. -/
  queue : List Bytes
  /-- The signals on their way to it. -/
  wire : List Bytes
  /-- The signals that were filed for its dance. -/
  inbox : List Bytes
  /-- What its dance has taken, what all its dances have taken, and what they have published. -/
  taken : List Bytes
  heard : List Bytes
  published : List Signal

namespace Party

/-- A party before any signal. -/
def new (dance : Dance) : Party := ⟨dance, [], [], [], [], [], []⟩

/-- Its pump files a signal, unless the inbox is full. -/
def file (p : Party) (payload : Bytes) : Party := { p with
  dance := p.dance.roused
  inbox := if p.inbox.length < inboxCap then p.inbox ++ [payload] else p.inbox }

/-- Its dance returns: the session guard frees the slot and drops the inbox. -/
def vacate (p : Party) : Party := { p with dance := .vacant, inbox := [], taken := [] }

/-- Its dance goes on, with the first signal of the inbox. -/
def take (p : Party) (payload : Bytes) (rest : List Bytes) (dance : Dance) : Party := { p with
  dance := dance
  inbox := rest
  taken := p.taken ++ [payload]
  heard := p.heard ++ [payload] }

/-- Its dance may fail at the signal. -/
def hear (p : Party) (payload : Bytes) (rest : List Bytes) : Dance → Party
  | .vacant => (p.take payload rest .vacant).vacate
  | dance => p.take payload rest dance

end Party

/-- Two endpoints and the relay between them. -/
abbrev Negotiation := Side → Party

section Steps

variable (encode : Signal → Bytes) (decode : Bytes → Option Signal)

/-- What a negotiation does by itself. -/
inductive Advance (refuses : List Remote → Remote → Option String) (answer : Publication) :
    Negotiation → Negotiation → Prop
  | publish {n : Negotiation} {i : Side} {offer : Option String} {signal : Signal}
      {left : List Signal} :
      (n i).dance = .publishing offer (signal :: left) →
      Advance refuses answer n (update n i { n i with
        dance := .publishing offer left
        queue := (n i).queue ++ [encode signal]
        published := (n i).published ++ [signal] })
  | consume {n : Negotiation} {i : Side} {offer : Option String} :
      (n i).dance = .publishing offer [] →
      Advance refuses answer n (update n i { n i with dance := .consuming offer .new })
  | send {n : Negotiation} {i : Side} {payload : Bytes} {rest : List Bytes} :
      (n i).queue = payload :: rest →
      Advance refuses answer n (update (update n i { n i with queue := rest }) i.other
        { n i.other with wire := (n i.other).wire ++ [payload] })
  | deliver {n : Negotiation} {i : Side} {payload : Bytes} {rest : List Bytes} :
      (n i).wire = payload :: rest →
      Advance refuses answer n (update n i (Party.file { n i with wire := rest } payload))
  | hear {n : Negotiation} {i : Side} {payload : Bytes} {rest : List Bytes} :
      (n i).dance.awaits = true → (n i).inbox = payload :: rest →
      Advance refuses answer n (update n i
        ((n i).hear payload rest ((n i).dance.hear decode refuses answer payload)))

/-- What may disturb it. -/
inductive Disturb : Negotiation → Negotiation → Prop
  /-- A signal is lost, with its relay before it is sent, or on the way. -/
  | drop {n : Negotiation} {i : Side} {before after : List Bytes} {payload : Bytes} :
      (n i).queue = before ++ payload :: after →
      Disturb n (update n i { n i with queue := before ++ after })
  | lose {n : Negotiation} {i : Side} {before after : List Bytes} {payload : Bytes} :
      (n i).wire = before ++ payload :: after →
      Disturb n (update n i { n i with wire := before ++ after })
  /-- A dance returns: at its deadline, on an endpoint that is closed, on an error of its peer
      connection, or with its channel. -/
  | leave {n : Negotiation} {i : Side} :
      (n i).dance ≠ .vacant → Disturb n (update n i (n i).vacate)
  /-- A side without a session dials the other one. -/
  | begin {n : Negotiation} {i : Side} {offer : Publication} :
      (n i).dance = .vacant →
      Disturb n (update n i { n i with dance := .publishing none (offer.signals .offerer) })

/-- Two endpoints that have not signaled to each other yet. -/
def negotiation : System Negotiation where
  init := {fun _ => .new .vacant}
  step n n' := (∃ refuses answer, Advance encode decode refuses answer n n') ∨ Disturb n n'

/-- A negotiation that nothing disturbs. -/
def undisturbed (answer : Publication) : System Negotiation where
  init := Set.univ
  step := Advance encode decode (fun _ _ => none) answer

end Steps

/-! ## How a dance goes on -/

section Hear

variable {encode : Signal → Bytes} {decode : Bytes → Option Signal}
  {refuses : List Remote → Remote → Option String} {answer : Publication}

/-- A consumption that goes on has given the peer connection what the payload holds. -/
theorem Consumption.take_applied {c : Consumption} {payload : Bytes} (hc : c.result = none)
    (hok : ∀ err, (c.take decode refuses payload).result ≠ some (.error err)) :
    (c.take decode refuses payload).applied =
      c.applied ++ ((decode payload).bind Signal.remote).toList := by
  rcases @take_open decode refuses c payload hc with
    ⟨h, hd | hd⟩ | ⟨h, hd⟩ | ⟨sdp, h, hd⟩ | ⟨remote, h, hd⟩ <;> rw [h] at hok ⊢
  · simp [hd]
  · simp [hd, Signal.remote]
  · simp [hd, body, Signal.remote]
  · exact absurd rfl (hok _)
  · rw [hd]
    rfl

namespace Dance

/-- What it has given the peer connection. -/
def applied : Dance → List Remote
  | consuming _ c => c.applied
  | vacant | expecting | publishing _ _ => []

/-- The offer that it answers. -/
def offer : Dance → Option String
  | publishing offer _ | consuming offer _ => offer
  | vacant | expecting => none

/-- How many answers it is still to publish. -/
def answers : Dance → ℕ
  | publishing _ left => left.countP Signal.isAnswer
  | vacant | expecting | consuming _ _ => 0

/-- A dance that is roused has given and answered nothing. -/
theorem roused_cases (dance : Dance) :
    dance.roused ≠ vacant ∧ dance.roused.applied = dance.applied ∧
      dance.roused.offer = dance.offer ∧ dance.roused.answers = dance.answers := by
  cases dance <;> exact ⟨nofun, rfl, rfl, rfl⟩

/-- What a dance that waits for a signal makes of it. -/
theorem hear_cases {dance : Dance} {payload : Bytes} (h : dance.awaits = true) :
    dance.hear decode refuses answer payload = vacant ∨
    (dance = expecting ∧ decode payload = none ∧
      dance.hear decode refuses answer payload = expecting) ∨
    (dance = expecting ∧ ∃ sdp, decode payload = some (.offer sdp) ∧
      dance.hear decode refuses answer payload =
        publishing (some sdp) (answer.signals .answerer)) ∨
    ∃ offer c, dance = consuming offer c ∧ c.result = none ∧
      (∀ err, (c.take decode refuses payload).result ≠ some (.error err)) ∧
      dance.hear decode refuses answer payload =
        consuming offer (c.take decode refuses payload) := by
  cases dance with
  | vacant | publishing => cases h
  | expecting =>
    cases hd : decode payload with
    | none => exact .inr (.inl ⟨rfl, rfl, by simp [hear, nextSignal, hd]⟩)
    | some signal =>
      cases signal with
      | offer sdp => exact .inr (.inr (.inl ⟨rfl, sdp, rfl, by simp [hear, nextSignal, hd]⟩))
      | _ => exact .inl (by simp [hear, nextSignal, hd])
  | consuming offer c =>
    cases hr : (c.take decode refuses payload).result with
    | none =>
      refine .inr (.inr (.inr ⟨offer, c, rfl, by simpa [awaits] using h, ?_, ?_⟩))
      · simp [hr]
      · simp [hear, hr]
    | some result =>
      cases result with
      | error err => exact .inl (by simp [hear, hr])
      | ok =>
        refine .inr (.inr (.inr ⟨offer, c, rfl, by simpa [awaits] using h, ?_, ?_⟩))
        · simp [hr]
        · simp [hear, hr]

end Dance

/-- What holds where a negotiation does not go on by itself. -/
structure Negotiation.Idle (n : Negotiation) : Prop where
  queue : ∀ i, (n i).queue = []
  wire : ∀ i, (n i).wire = []
  inbox : ∀ i, (n i).dance.awaits = true → (n i).inbox = []
  published : ∀ i offer left, (n i).dance ≠ .publishing offer left

theorem Negotiation.Idle.of_end {n : Negotiation}
    (hend : ∀ n', ¬Advance encode decode refuses answer n n') : n.Idle where
  queue i := by
    by_contra hne
    obtain ⟨payload, rest, hq⟩ := List.exists_cons_of_ne_nil hne
    exact hend _ (.send hq)
  wire i := by
    by_contra hne
    obtain ⟨payload, rest, hw⟩ := List.exists_cons_of_ne_nil hne
    exact hend _ (.deliver hw)
  inbox i haw := by
    by_contra hne
    obtain ⟨payload, rest, hin⟩ := List.exists_cons_of_ne_nil hne
    exact hend _ (.hear haw hin)
  published i off left hd := by
    cases left with
    | nil => exact hend _ (.consume hd)
    | cons signal left => exact hend _ (.publish hd)

end Hear

/-! ## What a side is given -/

/-- The signal is an offer. -/
def Signal.isOffer : Signal → Bool
  | offer _ => true
  | _ => false

namespace Publication

variable (p : Publication)

/-- The candidates, and their end. -/
def gathered : List Signal := p.candidates.map IceCandidate.signal ++ [.endOfCandidates]

theorem trickle_eq : p.trickle = p.gathered ++ [.done] := by
  simp [trickle, gathered]

/-- They are no offers, and hand over the candidates. -/
theorem gathered_spec :
    (∀ signal ∈ p.gathered, signal ≠ .done ∧ signal.isOffer = false) ∧
      p.gathered.filterMap Signal.remote = p.remotes := by
  constructor
  · intro signal hsignal
    rcases List.mem_append.1 hsignal with hsignal | hsignal
    · obtain ⟨c, -, rfl⟩ := List.mem_map.1 hsignal
      exact ⟨nofun, rfl⟩
    · rw [List.mem_singleton.1 hsignal]
      exact ⟨nofun, rfl⟩
  · rw [gathered, List.filterMap_append, List.filterMap_map, remotes, ← List.filterMap_eq_map]
    exact List.append_nil _

/-- After the description, a side publishes no offer. -/
theorem trickle_isOffer : ∀ signal ∈ p.trickle, signal.isOffer = false := by
  intro signal hsignal
  rw [trickle_eq] at hsignal
  rcases List.mem_append.1 hsignal with h | h
  · exact (p.gathered_spec.1 signal h).2
  · rw [List.mem_singleton.1 h]
    rfl

end Publication

/-- How many of the payloads are offers. -/
def offers (decode : Bytes → Option Signal) (payloads : List Bytes) : ℕ :=
  payloads.countP fun payload => (decode payload).any Signal.isOffer

/-- The signals that were published to a side and not lost, from those it has taken to those
    that were not sent yet. -/
def Negotiation.stream (n : Negotiation) (i : Side) : List Bytes :=
  (n i).heard ++ (n i).inbox ++ (n i).wire ++ (n i.other).queue

/-- The invariant of a side. -/
structure Party.Inv (decode : Bytes → Option Signal) (p : Party) : Prop where
  /-- Its dance has taken the last of what it has heard. -/
  taken : p.taken <:+ p.heard
  vacant : p.dance = .vacant → p.inbox = [] ∧ p.taken = []
  /-- The peer connection was given what the dance has taken. -/
  applied : p.dance.applied = remotes decode p.taken
  offer : ∀ sdp, p.dance.offer = some sdp →
    ∃ payload ∈ p.taken, decode payload = some (.offer sdp)
  /-- Every answer has an offer of its own. -/
  answers : p.published.countP Signal.isAnswer + p.dance.answers ≤ offers decode p.heard

/-- The invariant of a negotiation. -/
structure Negotiation.Inv (encode : Signal → Bytes) (decode : Bytes → Option Signal)
    (n : Negotiation) : Prop where
  order : ∀ i, (n.stream i).Sublist ((n i.other).published.map encode)
  party : ∀ i, (n i).Inv decode

section Sound

variable {encode : Signal → Bytes} {decode : Bytes → Option Signal}
  {refuses : List Remote → Remote → Option String} {answer : Publication} {n n' : Negotiation}
  {p : Party}

/-- An offerer publishes no answers, and an answerer one. -/
theorem Publication.countP_isAnswer (q : Publication) (role : Role) :
    (q.signals role).countP Signal.isAnswer = if role = .answerer then 1 else 0 := by
  have hcandidates : (q.candidates.map IceCandidate.signal).countP Signal.isAnswer = 0 := by
    rw [List.countP_map, List.countP_eq_zero]
    exact fun _ _ => nofun
  cases role <;>
    simp [signals, trickle, Role.describe, hcandidates, Signal.isAnswer, List.countP_cons]

/-- The signals that are taken are heard. -/
theorem offers_concat (payloads : List Bytes) (payload : Bytes) :
    offers decode (payloads ++ [payload]) =
      offers decode payloads + if (decode payload).any Signal.isOffer then 1 else 0 := by
  rw [offers, List.countP_append, List.countP_singleton, ← offers]

/-- A dance that goes on, or fails, at a signal has heard it, and leaves its own signals and
    those that come alone. -/
theorem Party.hear_frame (p : Party) (payload : Bytes) (rest : List Bytes) (dance : Dance) :
    (p.hear payload rest dance).queue = p.queue ∧ (p.hear payload rest dance).wire = p.wire ∧
      (p.hear payload rest dance).published = p.published ∧
      (p.hear payload rest dance).heard = p.heard ++ [payload] ∧
      (p.hear payload rest dance).inbox.Sublist rest := by
  cases dance <;> exact ⟨rfl, rfl, rfl, rfl, by simp [Party.hear, Party.take, Party.vacate]⟩

/-- A side keeps its invariant when its dance returns, -/
theorem Party.Inv.vacate (h : p.Inv decode) : p.vacate.Inv decode where
  taken := List.nil_suffix
  vacant _ := ⟨rfl, rfl⟩
  applied := rfl
  offer := nofun
  answers := (Nat.le_add_right _ _).trans h.answers

/-- and when it takes a signal. -/
theorem Party.Inv.hear (h : p.Inv decode) (haw : p.dance.awaits = true) {payload : Bytes}
    {rest : List Bytes} :
    (p.hear payload rest (p.dance.hear decode refuses answer payload)).Inv decode := by
  have htaken : p.taken ++ [payload] <:+ p.heard ++ [payload] := by
    obtain ⟨old, hold⟩ := h.taken
    exact ⟨old, by rw [← hold, List.append_assoc]⟩
  have hanswers : p.published.countP Signal.isAnswer ≤ offers decode (p.heard ++ [payload]) := by
    rw [offers_concat]
    exact ((Nat.le_add_right _ _).trans h.answers).trans (Nat.le_add_right _ _)
  rcases @Dance.hear_cases decode refuses answer p.dance payload haw with
    hf | ⟨he, hd, hf⟩ | ⟨he, sdp, hd, hf⟩ | ⟨offer, c, he, hc, hok, hf⟩ <;> rw [hf]
  · exact ⟨List.nil_suffix, fun _ => ⟨rfl, rfl⟩, rfl, nofun, hanswers⟩
  · refine ⟨htaken, nofun, ?_, nofun, hanswers⟩
    have happlied := h.applied
    rw [he] at happlied
    simp only [Party.hear, Party.take, remotes_concat, ← happlied, hd]
    rfl
  · refine ⟨htaken, nofun, ?_, ?_, ?_⟩
    · have happlied := h.applied
      rw [he] at happlied
      simp only [Party.hear, Party.take, remotes_concat, ← happlied, hd]
      rfl
    · rintro _ ⟨⟩
      exact ⟨payload, by simp [Party.hear, Party.take], hd⟩
    · have hone := h.answers
      rw [he] at hone
      simp only [Party.hear, Party.take, Dance.answers, Publication.countP_isAnswer, offers_concat,
        hd]
      simpa [Dance.answers, Signal.isOffer] using hone
  · refine ⟨htaken, nofun, ?_, fun sdp hsdp => ?_, hanswers⟩
    · have happlied := h.applied
      rw [he] at happlied
      simp only [Party.hear, Party.take, remotes_concat, ← happlied]
      exact Consumption.take_applied hc hok
    · obtain ⟨offered, hmem, hd⟩ := h.offer sdp (by rw [he]; exact hsdp)
      exact ⟨offered, List.mem_append_left _ hmem, hd⟩

/-- A side keeps it when a signal is filed. -/
theorem Party.Inv.file (h : p.Inv decode) (payload : Bytes) : (p.file payload).Inv decode := by
  obtain ⟨hne, happlied, hoffer, hanswers⟩ := p.dance.roused_cases
  refine ⟨h.taken, fun hv => absurd hv hne, happlied.trans h.applied, fun sdp hsdp => ?_, ?_⟩
  · exact h.offer sdp (hoffer.symm.trans hsdp)
  · exact (congrArg _ hanswers).trans_le h.answers

/-- A step of one side. -/
theorem Negotiation.inv_update (h : ∀ j, (n j).Inv decode) {i : Side} (hp : p.Inv decode) :
    ∀ j, (update n i p j).Inv decode :=
  (forall_update_iff n fun _ (p : Party) => p.Inv decode).2 ⟨hp, fun j _ => h j⟩

/-- A negotiation that goes on keeps its invariant. -/
theorem Negotiation.Inv.advance (h : n.Inv encode decode)
    (hst : Advance encode decode refuses answer n n') : n'.Inv encode decode := by
  cases hst with
  | @publish i offer signal left hd =>
    have hi := h.party i
    constructor
    · refine (Side.forall_iff i).2 ⟨by simpa [stream] using h.order i, ?_⟩
      have hmore := (h.order i.other).append (List.Sublist.refl [encode signal])
      simpa [stream] using hmore
    · refine inv_update h.party ⟨hi.taken, nofun, ?_, ?_, ?_⟩
      · rw [← hi.applied, hd]
        rfl
      · exact fun sdp hsdp => hi.offer sdp (by rw [hd]; exact hsdp)
      · have hone := hi.answers
        rw [hd] at hone
        simp only [Dance.answers, List.countP_cons, List.countP_append, List.countP_nil] at hone ⊢
        omega
  | @consume i offer hd =>
    have hi := h.party i
    constructor
    · exact (Side.forall_iff i).2 ⟨by simpa [stream] using h.order i,
        by simpa [stream] using h.order i.other⟩
    · refine inv_update h.party ⟨hi.taken, nofun, ?_, ?_, ?_⟩
      · rw [← hi.applied, hd]
        rfl
      · exact fun sdp hsdp => hi.offer sdp (by rw [hd]; exact hsdp)
      · exact (Nat.le_add_right _ _).trans hi.answers
  | @send i payload rest hq =>
    have hi := h.party i
    have hj := h.party i.other
    constructor
    · refine (Side.forall_iff i).2 ⟨by simpa [stream] using h.order i, ?_⟩
      simpa [stream, hq] using h.order i.other
    · refine inv_update (inv_update h.party ?_) ?_
      · exact ⟨hi.taken, hi.vacant, hi.applied, hi.offer, hi.answers⟩
      · exact ⟨hj.taken, hj.vacant, hj.applied, hj.offer, hj.answers⟩
  | @deliver i payload rest hw =>
    have hi := h.party i
    constructor
    · refine (Side.forall_iff i).2 ⟨?_, by simpa [stream, Party.file] using h.order i.other⟩
      refine List.Sublist.trans ?_ (by simpa using h.order i)
      simp only [stream, Party.file, update_self, update_of_ne i.other_ne, hw]
      split <;> simp
    · refine inv_update h.party (Party.Inv.file ?_ payload)
      exact ⟨hi.taken, hi.vacant, hi.applied, hi.offer, hi.answers⟩
  | @hear i payload rest haw hin =>
    refine ⟨?_, inv_update h.party ((h.party i).hear haw)⟩
    generalize (n i).dance.hear decode refuses answer payload = dance
    obtain ⟨hqueue, hwire, hpublished, hheard, hinbox⟩ := (n i).hear_frame payload rest dance
    refine (Side.forall_iff i).2 ⟨List.Sublist.trans ?_ (by simpa using h.order i), ?_⟩
    · simp only [stream, update_self, update_of_ne i.other_ne, hwire, hheard, hin]
      simpa using hinbox
    · simpa [stream, hqueue, hpublished] using h.order i.other

/-- So does one that is disturbed. -/
theorem Negotiation.Inv.disturb (h : n.Inv encode decode) (hst : Disturb n n') :
    n'.Inv encode decode := by
  cases hst with
  | @drop i before after payload hq =>
    have hi := h.party i
    constructor
    · refine (Side.forall_iff i).2 ⟨by simpa [stream] using h.order i, ?_⟩
      refine List.Sublist.trans ?_ (by simpa using h.order i.other)
      simp [stream, hq]
    · exact inv_update h.party ⟨hi.taken, hi.vacant, hi.applied, hi.offer, hi.answers⟩
  | @lose i before after payload hw =>
    have hi := h.party i
    constructor
    · refine (Side.forall_iff i).2 ⟨?_, by simpa [stream] using h.order i.other⟩
      refine List.Sublist.trans ?_ (by simpa using h.order i)
      simp [stream, hw]
    · exact inv_update h.party ⟨hi.taken, hi.vacant, hi.applied, hi.offer, hi.answers⟩
  | @leave i hd =>
    constructor
    · refine (Side.forall_iff i).2 ⟨?_, by simpa [stream, Party.vacate] using h.order i.other⟩
      refine List.Sublist.trans ?_ (by simpa using h.order i)
      simp [stream, Party.vacate]
    · exact inv_update h.party (h.party i).vacate
  | @begin i offer hd =>
    have hi := h.party i
    have htaken := (hi.vacant hd).2
    constructor
    · exact (Side.forall_iff i).2 ⟨by simpa [stream] using h.order i,
        by simpa [stream] using h.order i.other⟩
    · refine inv_update h.party ⟨hi.taken, nofun, ?_, nofun, ?_⟩
      · rw [htaken]
        rfl
      · have hone := hi.answers
        rw [hd] at hone
        simpa [Dance.answers, Publication.countP_isAnswer] using hone

/-- In every run. -/
theorem Negotiation.inv_reachable (hn : (negotiation encode decode).Reachable n) :
    n.Inv encode decode := by
  refine hn.invariant (P := Negotiation.Inv encode decode) ?_ ?_
  · rintro _ rfl
    exact ⟨fun _ => List.Sublist.refl [],
      fun _ => ⟨List.suffix_rfl, fun _ => ⟨rfl, rfl⟩, rfl, nofun, le_refl 0⟩⟩
  · rintro n n' - (⟨refuses, answer, hst⟩ | hst) h
    · exact h.advance hst
    · exact h.disturb hst

/-- What either side gives its peer connection, and what it answers. -/
structure Honest (encode : Signal → Bytes) (decode : Bytes → Option Signal) (n : Negotiation) :
    Prop where
  /-- The other side has published it, in that order and at least as often. -/
  applied : ∀ i, (n i).dance.applied.Sublist (remotes decode ((n i.other).published.map encode))
  /-- An answerer has taken an offer of the other side. -/
  offer : ∀ i sdp, (n i).dance.offer = some sdp →
    ∃ signal ∈ (n i.other).published, decode (encode signal) = some (.offer sdp)
  /-- There are no more answers than offers of the other side. -/
  answers : ∀ i, (n i).published.countP Signal.isAnswer ≤
    offers decode ((n i.other).published.map encode)

/-- **In every run**, a side is given only what the other side has published. -/
theorem negotiation_sound (hn : (negotiation encode decode).Reachable n) :
    Honest encode decode n := by
  have h := Negotiation.inv_reachable hn
  have hheard : ∀ i, (n i).heard.Sublist ((n i.other).published.map encode) := fun i =>
    List.Sublist.trans (by simp [Negotiation.stream, List.append_assoc]) (h.order i)
  have htaken : ∀ i, (n i).taken.Sublist ((n i.other).published.map encode) := fun i =>
    (h.party i).taken.sublist.trans (hheard i)
  refine ⟨fun i => ?_, fun i sdp hsdp => ?_, fun i => ?_⟩
  · rw [(h.party i).applied]
    exact (htaken i).filterMap _
  · obtain ⟨payload, hmem, hd⟩ := (h.party i).offer sdp hsdp
    obtain ⟨signal, hsignal, rfl⟩ := List.mem_map.1 ((htaken i).subset hmem)
    exact ⟨signal, hsignal, hd⟩
  · exact ((Nat.le_add_right _ _).trans (h.party i).answers).trans ((hheard i).countP_le)

end Sound

/-! ## A negotiation with one candidate -/

/-- The JSON of a candidate, and of the end of them. -/
def Signal.candidateJson : Bytes :=
  ("\x7b\"type\":\"candidate\",\"candidate\":\"host\",\"sdp_mid\":null," ++
    "\"sdp_mline_index\":null\x7d").toUTF8.toList
def Signal.endJson : Bytes := "\x7b\"type\":\"end-of-candidates\"\x7d".toUTF8.toList

/-- What a peer connection with one candidate publishes. -/
def Publication.plain : Publication := ⟨"v=0", [⟨"host", none, none⟩]⟩

/-- How its signals are encoded, -/
def Signal.json : Signal → Bytes
  | offer _ => offerJson
  | answer _ => answerJson
  | candidate _ _ _ => candidateJson
  | endOfCandidates => endJson
  | done => doneJson

/-- and decoded. -/
def Signal.ofPeer (payload : Bytes) : Option Signal :=
  if payload = candidateJson then some (.candidate "host" none none)
  else if payload = endJson then some .endOfCandidates
  else ofAnswerer payload

theorem Signal.ofPeer_json (role : Role) :
    ∀ signal ∈ Publication.plain.signals role, ofPeer signal.json = some signal := by
  cases role <;> decide +kernel

end IrohEndpoint
