import IrohEndpoint.Lib.Inevitable
import IrohEndpoint.Negotiation.Basic

/-!
# An agreement

A negotiation that nothing disturbs, of one side that offers and one that has no session. It ends
in an agreement, in which either side has the description and all the candidates of the other,
if and only if the signals of either fit into an inbox (`negotiation_agrees_iff`).

If they fit, none is lost (`Proper`), and the negotiation goes on until the agreement is there:
its rank counts the signals by how far they have come. If those of a side do not fit, they may all
arrive before the other side takes one. Its `done` is then dropped, and the other side waits for
it (`Missed`).
-/

namespace IrohEndpoint

open Transition Function

/-! ## An agreement -/

/-- The left side has offered, the right one has answered, and both have gone on with exactly what
    the other one has published. -/
def Agreed (offer answer : Publication) (n : Negotiation) : Prop :=
  (n .left).dance.proceeded = some (none, .description answer.sdp :: answer.remotes) ∧
    (n .right).dance.proceeded = some (some offer.sdp, offer.remotes)

/-- The left side begins to offer, and the right one has no session. -/
def Negotiation.offering (offer : Publication) : Negotiation
  | .left => .new (.publishing none (offer.signals .offerer))
  | .right => .new .vacant

section Agreement

variable {encode : Signal → Bytes} {decode : Bytes → Option Signal} {offer answer : Publication}
  {n n' : Negotiation} {i : Side} {payload : Bytes} {rest : List Bytes}

/-- A consumption goes on as long as it takes neither an offer nor a `done`. -/
theorem consumed_open {l : List Signal}
    (hcodec : ∀ signal ∈ l, decode (encode signal) = some signal)
    (hl : ∀ signal ∈ l, signal ≠ .done ∧ signal.isOffer = false) :
    (consumed decode (fun _ _ => none) (l.map encode)).result = none := by
  by_contra hreturned
  obtain ⟨taken, payload, rest, heq, hfinal⟩ := (consumed_spec _).1.1 hreturned
  have hmem : payload ∈ l.map encode := by rw [heq]; simp
  obtain ⟨signal, hsignal, rfl⟩ := List.mem_map.1 hmem
  obtain ⟨hdone, hoffer⟩ := hl signal hsignal
  rw [Final, hcodec signal hsignal] at hfinal
  rcases hfinal with hd | ⟨sdp, hd⟩ | ⟨_, _, hrefused⟩
  · exact hdone (Option.some.inj hd)
  · rw [Option.some.inj hd] at hoffer
    cases hoffer
  · exact hrefused rfl

/-- What some signals hand to the peer connection. -/
theorem remotes_map {l : List Signal}
    (hcodec : ∀ signal ∈ l, decode (encode signal) = some signal) :
    remotes decode (l.map encode) = l.filterMap Signal.remote := by
  rw [remotes, List.filterMap_map]
  exact List.filterMap_congr fun signal hsignal => by simp [hcodec signal hsignal]

/-- A consumption of signals that end with `done` goes on until it has taken all of them. -/
theorem consumed_signals {l : List Signal}
    (hcodec : ∀ signal ∈ l ++ [Signal.done], decode (encode signal) = some signal)
    (hl : ∀ signal ∈ l, signal ≠ .done ∧ signal.isOffer = false) {taken more : List Bytes}
    (heq : (l ++ [Signal.done]).map encode = taken ++ more) :
    (more ≠ [] → (consumed decode (fun _ _ => none) taken).result = none) ∧
      (more = [] → consumed decode (fun _ _ => none) taken =
        ⟨l.filterMap Signal.remote, some (.ok ())⟩) := by
  have hinit : ∀ signal ∈ l, decode (encode signal) = some signal :=
    fun signal hsignal => hcodec signal (List.mem_append_left _ hsignal)
  constructor
  · intro hmore
    obtain ⟨more, last, rfl⟩ := (List.eq_nil_or_concat more).resolve_left hmore
    rw [List.map_append, List.concat_eq_append, ← List.append_assoc] at heq
    obtain ⟨hl', -⟩ := List.append_inj' heq rfl
    obtain ⟨l₁, l₂, rfl, rfl, -⟩ := List.map_eq_append_iff.1 hl'
    exact consumed_open (fun signal hsignal => hinit signal (List.mem_append_left _ hsignal))
      fun signal hsignal => hl signal (List.mem_append_left _ hsignal)
  · rintro rfl
    rw [List.append_nil] at heq
    rw [← heq, List.map_append, ← remotes_map hinit]
    exact consumed_done (consumed_open hinit hl) (hcodec .done (by simp))

/-- It does not fail. -/
theorem consumed_ne_error {l : List Signal}
    (hcodec : ∀ signal ∈ l ++ [Signal.done], decode (encode signal) = some signal)
    (hl : ∀ signal ∈ l, signal ≠ .done ∧ signal.isOffer = false) {taken more : List Bytes}
    (heq : (l ++ [Signal.done]).map encode = taken ++ more) (err : Error) :
    (consumed decode (fun _ _ => none) taken).result ≠ some (.error err) := by
  obtain ⟨hopen, hdone⟩ := consumed_signals hcodec hl heq
  by_cases hmore : more = []
  · simp [hdone hmore]
  · simp [hopen hmore]

variable (encode decode offer) in
/-- How the dances of the two sides go, with what they have taken. -/
inductive Plays : Side → Dance → List Bytes → Prop
  | offers {left : List Signal} : Plays .left (.publishing none left) []
  | offered {taken : List Bytes} :
      Plays .left (.consuming none (consumed decode (fun _ _ => none) taken)) taken
  | vacant : Plays .right .vacant []
  | expecting : Plays .right .expecting []
  | answers {left : List Signal} :
      Plays .right (.publishing (some offer.sdp) left) [encode (.offer offer.sdp)]
  | answered {taken : List Bytes} :
      Plays .right (.consuming (some offer.sdp) (consumed decode (fun _ _ => none) taken))
        (encode (.offer offer.sdp) :: taken)

variable (offer answer) in
/-- The signals of a side. -/
def Side.signals : Side → List Signal
  | left => offer.signals .offerer
  | right => answer.signals .answerer

variable (answer) in
/-- What a dance is still to publish. -/
def Dance.unpublished : Dance → List Signal
  | vacant | expecting => answer.signals .answerer
  | publishing _ left => left
  | consuming _ _ => []

variable (encode decode offer answer) in
/-- What holds in an undisturbed negotiation whose signals fit into the inboxes: none is lost. -/
structure Proper (n : Negotiation) : Prop where
  flow : ∀ i, (i.other.signals offer answer).map encode =
    (n i).taken ++ (n i).inbox ++ (n i).wire ++ (n i.other).queue ++
      ((n i.other).dance.unpublished answer).map encode
  plays : ∀ i, Plays encode decode offer i (n i).dance (n i).taken
  vacant : ∀ i, (n i).dance = .vacant → (n i).inbox = []

/-- The signals of both sides are read as they were written. -/
def Codec (encode : Signal → Bytes) (decode : Bytes → Option Signal) (offer answer : Publication) :
    Prop :=
  ∀ i : Side, ∀ signal ∈ i.signals offer answer, decode (encode signal) = some signal

variable (answer) in
/-- How many steps a dance is still to take, with three for each of its signals. -/
def Dance.weight : Dance → ℕ
  | vacant | expecting => 4 * (answer.candidates.length + 3) + 2
  | publishing _ left => 4 * left.length + 1
  | consuming _ _ => 0

variable (answer) in
/-- The rank of a side. -/
def Party.load (p : Party) : ℕ :=
  p.dance.weight answer + 3 * p.queue.length + 2 * p.wire.length + p.inbox.length

variable (answer) in
/-- The rank of a negotiation. -/
def Negotiation.rank (n : Negotiation) : ℕ := (n .left).load answer + (n .right).load answer

theorem Negotiation.rank_eq (n : Negotiation) (i : Side) :
    n.rank answer = (n i).load answer + (n i.other).load answer := by
  cases i
  · rfl
  · exact add_comm _ _

/-- The signals that the left side consumes, -/
theorem Codec.left (h : Codec encode decode offer answer) :
    (∀ signal ∈ .answer answer.sdp :: answer.gathered ++ [Signal.done],
      decode (encode signal) = some signal) ∧
    (∀ signal ∈ .answer answer.sdp :: answer.gathered, signal ≠ .done ∧ signal.isOffer = false) := by
  refine ⟨fun signal hsignal => h .right signal ?_,
    List.forall_mem_cons.2 ⟨⟨nofun, rfl⟩, answer.gathered_spec.1⟩⟩
  rwa [Side.signals, Publication.signals, Publication.trickle_eq]

/-- and the right one. -/
theorem Codec.right (h : Codec encode decode offer answer) :
    decode (encode (.offer offer.sdp)) = some (.offer offer.sdp) ∧
    ∀ signal ∈ offer.gathered ++ [Signal.done], decode (encode signal) = some signal := by
  refine ⟨h .left _ List.mem_cons_self, fun signal hsignal => h .left signal ?_⟩
  rw [Side.signals, Publication.signals, Publication.trickle_eq]
  exact List.mem_cons_of_mem _ hsignal

/-- A consumption that does not fail goes on. -/
theorem Dance.hear_consuming {refuses : List Remote → Remote → Option String}
    {off : Option String} {c : Consumption}
    (hok : ∀ err, (c.take decode refuses payload).result ≠ some (.error err)) :
    (Dance.consuming off c).hear decode refuses answer payload =
      .consuming off (c.take decode refuses payload) := by
  rw [hear]
  split
  · next err herr => exact absurd herr (hok err)
  · rfl

/-- In a proper negotiation, no dance fails at a signal. -/
theorem Proper.hears (h : Proper encode decode offer answer n)
    (hcodec : Codec encode decode offer answer)
    (haw : (n i).dance.awaits = true) (hin : (n i).inbox = payload :: rest) :
    ∃ dance, (n i).dance.hear decode (fun _ _ => none) answer payload = dance ∧ dance ≠ .vacant ∧
      Plays encode decode offer i dance ((n i).taken ++ [payload]) ∧
      dance.unpublished answer = (n i).dance.unpublished answer ∧
      dance.weight answer ≤ (n i).dance.weight answer := by
  have hplays := h.plays i
  obtain ⟨more, hflow⟩ : ∃ more, (i.other.signals offer answer).map encode =
      (n i).taken ++ [payload] ++ more :=
    ⟨rest ++ (n i).wire ++ (n i.other).queue ++ ((n i.other).dance.unpublished answer).map encode,
      by simp [h.flow i, hin]⟩
  generalize (n i).dance = dance at haw hplays ⊢
  generalize (n i).taken = taken at hplays hflow ⊢
  cases hplays with
  | offers | vacant | answers => cases haw
  | @offered taken =>
    rw [Side.other, Side.signals, Publication.signals, Publication.trickle_eq] at hflow
    have hok := consumed_ne_error hcodec.left.1 hcodec.left.2 hflow
    rw [consumed_concat] at hok
    refine ⟨_, Dance.hear_consuming hok, nofun, ?_, rfl, le_refl _⟩
    rw [← consumed_concat]
    exact .offered
  | expecting =>
    have hfirst : encode (.offer offer.sdp) = payload := (List.cons_eq_cons.1 hflow).1
    refine ⟨.publishing (some offer.sdp) (answer.signals .answerer), ?_, nofun, ?_, rfl, ?_⟩
    · simp [Dance.hear, nextSignal, ← hfirst, hcodec.right.1]
    · rw [← hfirst]
      exact .answers
    · simp [Dance.weight]
  | @answered taken =>
    rw [Side.other, Side.signals, Publication.signals, Publication.trickle_eq] at hflow
    have hrest : (offer.gathered ++ [Signal.done]).map encode = taken ++ [payload] ++ more :=
      (List.cons_eq_cons.1 hflow).2
    have hok := consumed_ne_error hcodec.right.2 offer.gathered_spec.1 hrest
    rw [consumed_concat] at hok
    refine ⟨_, Dance.hear_consuming hok, by simp, ?_, rfl, le_refl _⟩
    rw [← consumed_concat]
    exact .answered

/-- The signals of both sides fit into an inbox. -/
def Fits (offer answer : Publication) : Prop :=
  ∀ i : Side, (i.signals offer answer).length ≤ inboxCap

/-- A step of a proper negotiation loses no signal, and lowers the rank. -/
theorem Proper.step (h : Proper encode decode offer answer n)
    (hcodec : Codec encode decode offer answer) (hfits : Fits offer answer)
    (hst : Advance encode decode (fun _ _ => none) answer n n') :
    Proper encode decode offer answer n' ∧ n'.rank answer < n.rank answer := by
  cases hst with
  | @publish i off signal left hd =>
    have hi := h.plays i
    have hflow := h.flow i.other
    rw [hd] at hi
    simp only [Side.other_other, hd, Dance.unpublished] at hflow
    refine ⟨⟨(Side.forall_iff i).2 ⟨by simpa using h.flow i, ?_⟩, ?_, ?_⟩, ?_⟩
    · simpa [Dance.unpublished] using hflow
    · refine (Side.forall_iff i).2 ⟨?_, by simpa using h.plays i.other⟩
      rw [update_self]
      generalize (n i).taken = taken at hi ⊢
      cases hi with
      | offers => exact .offers
      | answers => exact .answers
    · exact (Side.forall_iff i).2 ⟨by simp, by simpa using h.vacant i.other⟩
    · rw [Negotiation.rank_eq _ i, Negotiation.rank_eq n i]
      simp [Party.load, hd, Dance.weight]
      omega
  | @consume i off hd =>
    have hi := h.plays i
    have hflow := h.flow i.other
    rw [hd] at hi
    simp only [Side.other_other, hd, Dance.unpublished] at hflow
    refine ⟨⟨(Side.forall_iff i).2 ⟨by simpa using h.flow i, ?_⟩, ?_, ?_⟩, ?_⟩
    · simpa [Dance.unpublished] using hflow
    · refine (Side.forall_iff i).2 ⟨?_, by simpa using h.plays i.other⟩
      rw [update_self]
      generalize (n i).taken = taken at hi ⊢
      cases hi with
      | offers => exact @Plays.offered encode decode offer []
      | answers => exact @Plays.answered encode decode offer []
    · exact (Side.forall_iff i).2 ⟨by simp, by simpa using h.vacant i.other⟩
    · rw [Negotiation.rank_eq _ i, Negotiation.rank_eq n i]
      simp [Party.load, hd, Dance.weight]
  | @send i payload rest hq =>
    refine ⟨⟨(Side.forall_iff i).2 ⟨by simpa using h.flow i, ?_⟩, ?_, ?_⟩, ?_⟩
    · simpa [hq] using h.flow i.other
    · exact (Side.forall_iff i).2 ⟨by simpa using h.plays i, by simpa using h.plays i.other⟩
    · exact (Side.forall_iff i).2 ⟨by simpa using h.vacant i, by simpa using h.vacant i.other⟩
    · rw [Negotiation.rank_eq _ i, Negotiation.rank_eq n i]
      simp [Party.load, hq]
      omega
  | @deliver i payload rest hw =>
    have hroom : (n i).inbox.length < inboxCap := by
      have hlength := congrArg List.length (h.flow i)
      simp only [List.length_map, List.length_append, hw, List.length_cons] at hlength
      have hfit := hfits i.other
      omega
    refine ⟨⟨(Side.forall_iff i).2 ⟨?_, ?_⟩, ?_, ?_⟩, ?_⟩
    · simpa [Party.file, hroom, hw] using h.flow i
    · have hsame : (n i).dance.roused.unpublished answer = (n i).dance.unpublished answer := by
        cases (n i).dance <;> rfl
      simpa [Party.file, hsame] using h.flow i.other
    · refine (Side.forall_iff i).2 ⟨?_, by simpa using h.plays i.other⟩
      have hi := h.plays i
      simp only [update_self, Party.file]
      generalize (n i).dance = dance at hi ⊢
      generalize (n i).taken = taken at hi ⊢
      cases hi with
      | vacant => exact .expecting
      | offers => exact .offers
      | offered => exact .offered
      | expecting => exact .expecting
      | answers => exact .answers
      | answered => exact .answered
    · refine (Side.forall_iff i).2 ⟨fun hv => ?_, by simpa using h.vacant i.other⟩
      rw [update_self] at hv
      exact absurd hv (n i).dance.roused_cases.1
    · have hsame : (n i).dance.roused.weight answer = (n i).dance.weight answer := by
        cases (n i).dance <;> rfl
      rw [Negotiation.rank_eq _ i, Negotiation.rank_eq n i]
      simp [Party.load, Party.file, hroom, hsame, hw]
      omega
  | @hear i payload rest haw hin =>
    obtain ⟨dance, hhear, hne, hplays, hsame, hweight⟩ := h.hears hcodec haw hin
    have htake : (n i).hear payload rest dance = (n i).take payload rest dance := by
      cases dance with
      | vacant => exact absurd rfl hne
      | _ => rfl
    rw [hhear, htake]
    refine ⟨⟨(Side.forall_iff i).2 ⟨?_, ?_⟩, ?_, ?_⟩, ?_⟩
    · simpa [Party.take, hin] using h.flow i
    · simpa [Party.take, hsame] using h.flow i.other
    · exact (Side.forall_iff i).2 ⟨by simpa [Party.take] using hplays,
        by simpa using h.plays i.other⟩
    · exact (Side.forall_iff i).2 ⟨by simp [Party.take, hne], by simpa using h.vacant i.other⟩
    · rw [Negotiation.rank_eq _ i, Negotiation.rank_eq n i]
      simp [Party.load, Party.take, hin]
      omega

/-- A consumption that waits for signals which do not come has taken all of them. -/
theorem consumed_all {l : List Signal}
    (hcodec : ∀ signal ∈ l ++ [Signal.done], decode (encode signal) = some signal)
    (hl : ∀ signal ∈ l, signal ≠ .done ∧ signal.isOffer = false) {taken inbox : List Bytes}
    (heq : (l ++ [Signal.done]).map encode = taken ++ inbox)
    (hend : (consumed decode (fun _ _ => none) taken).result = none → inbox = []) :
    consumed decode (fun _ _ => none) taken = ⟨l.filterMap Signal.remote, some (.ok ())⟩ := by
  obtain ⟨hopen, hdone⟩ := consumed_signals hcodec hl heq
  by_cases hinbox : inbox = []
  · exact hdone hinbox
  · exact absurd (hend (hopen hinbox)) hinbox

/-- A proper negotiation only comes to an end in an agreement. -/
theorem Proper.agreed (h : Proper encode decode offer answer n)
    (hcodec : Codec encode decode offer answer)
    (hend : ∀ n', ¬Advance encode decode (fun _ _ => none) answer n n') : Agreed offer answer n := by
  have hidle := Negotiation.Idle.of_end hend
  have hright := h.plays .right
  have hleft := h.plays .left
  have htoRight := h.flow .right
  have htoLeft := h.flow .left
  have hvacant := h.vacant .right
  have hinLeft := hidle.inbox .left
  have hinRight := hidle.inbox .right
  have hsilentLeft := hidle.published .left
  have hsilentRight := hidle.published .right
  simp only [Side.other, hidle.queue, hidle.wire, List.append_nil, Side.signals] at htoLeft htoRight
  rw [Agreed]
  generalize (n .left).dance = dance at hleft hinLeft hsilentLeft htoRight ⊢
  generalize (n .left).taken = taken at hleft htoLeft
  generalize (n .right).dance = dance' at hright hinRight hsilentRight hvacant htoLeft ⊢
  generalize (n .right).taken = taken' at hright htoRight
  cases hleft with
  | offers => exact absurd rfl (hsilentLeft _ _)
  | offered =>
    cases hright with
    | vacant =>
      rw [hvacant rfl] at htoRight
      cases htoRight
    | expecting =>
      rw [hinRight rfl] at htoRight
      cases htoRight
    | answers => exact absurd rfl (hsilentRight _ _)
    | @answered taken' =>
      rw [Publication.signals, Publication.trickle_eq] at htoLeft htoRight
      have htaken : (offer.gathered ++ [Signal.done]).map encode = taken' ++ (n .right).inbox := by
        simpa [Dance.unpublished] using (List.cons_eq_cons.1 htoRight).2
      have hanswered := consumed_all hcodec.right.2 offer.gathered_spec.1 htaken
        fun hopen => hinRight (by rw [Dance.awaits, hopen]; rfl)
      have hoffered := consumed_all hcodec.left.1 hcodec.left.2
        (by simpa [Dance.unpublished, Role.describe] using htoLeft)
        fun hopen => hinLeft (by rw [Dance.awaits, hopen]; rfl)
      rw [hanswered, hoffered, offer.gathered_spec.2, List.filterMap_cons, Signal.remote,
        answer.gathered_spec.2]
      exact ⟨rfl, rfl⟩

/-- It starts as one. -/
theorem Proper.offering : Proper encode decode offer answer (Negotiation.offering offer) where
  flow i := by cases i <;> rfl
  plays i := by
    cases i
    · exact .offers
    · exact .vacant
  vacant i _ := by cases i <;> rfl

/-- If the signals fit, an agreement is inevitable. -/
theorem agreed_inevitable (hcodec : Codec encode decode offer answer) (hfits : Fits offer answer) :
    (undisturbed encode decode answer).Inevitable (Agreed offer answer)
      (Negotiation.offering offer) := by
  refine System.Inevitable.of_rank wellFounded_lt (Negotiation.rank answer)
    (I := Proper encode decode offer answer) (fun n h hnot => ?_) (fun n n' h _ hst => ?_) .offering
  · by_contra hend
    exact hnot (h.agreed hcodec fun n' hst => hend ⟨n', hst⟩)
  · exact .inr (h.step hcodec hfits hst)

end Agreement

/-! ## A `done` that is dropped -/

section Missed

variable {encode : Signal → Bytes} {decode : Bytes → Option Signal} {offer answer : Publication}
  {n n' : Negotiation} {i : Side} {payload : Bytes} {rest : List Bytes}

variable (encode decode answer) in
/-- Side `i` has missed the `done` of the other one, which has published all of its signals, and
    is given no offer. -/
structure Missed (n : Negotiation) (i : Side) : Prop where
  ended : ∃ off c, (n i.other).dance = .consuming off c
  missed : ∀ payload ∈ (n i).inbox ++ (n i).wire ++ (n i.other).queue,
    decode payload ≠ some .done
  calm : ∀ payload ∈ (n i.other).inbox ++ (n i.other).wire ++ (n i).queue ++
    ((n i).dance.unpublished answer).map encode, ∀ sdp, decode payload ≠ some (.offer sdp)
  waits : (n i).dance.proceeded = none

theorem Side.eq_or_eq_other (i j : Side) : j = i ∨ j = i.other := by
  cases i <;> cases j <;> simp [Side.other]

/-- What is in the inbox after a signal was filed. -/
theorem Party.mem_file_inbox {p : Party} {payload q : Bytes} (h : q ∈ (p.file payload).inbox) :
    q ∈ p.inbox ∨ q = payload := by
  rw [Party.file] at h
  dsimp only at h
  split at h
  · simpa using h
  · exact .inl h

namespace Consumption

variable {c : Consumption}

/-- A consumption succeeds at a `done` only. -/
theorem take_ne_ok {refuses : List Remote → Remote → Option String} (hc : c.result = none)
    (hd : decode payload ≠ some .done) : (c.take decode refuses payload).result ≠ some (.ok ()) := by
  rcases @take_open decode refuses c payload hc with
    ⟨h, -⟩ | ⟨-, hdone⟩ | ⟨sdp, h, -⟩ | ⟨remote, h, -⟩
  · rw [h, hc]
    exact nofun
  · exact absurd hdone hd
  · rw [h]
    exact nofun
  · rw [h]
    simp [apply]

/-- It fails at an offer only, if the peer connection refuses nothing. -/
theorem take_ne_error (hc : c.result = none) (hd : ∀ sdp, decode payload ≠ some (.offer sdp))
    (err : Error) : (c.take decode (fun _ _ => none) payload).result ≠ some (.error err) := by
  rcases @take_open decode (fun _ _ => none) c payload hc with
    ⟨h, -⟩ | ⟨h, -⟩ | ⟨sdp, -, hoffer⟩ | ⟨remote, h, -⟩
  · rw [h, hc]
    exact nofun
  · rw [h]
    exact nofun
  · exact absurd hoffer (hd sdp)
  · rw [h]
    exact nofun

end Consumption

/-- A dance has not gone on as long as its consumption has not succeeded. -/
theorem Dance.proceeded_consuming {off : Option String} {c : Consumption}
    (h : c.result ≠ some (.ok ())) : (Dance.consuming off c).proceeded = none := by
  rw [proceeded.eq_def]
  split
  · next heq =>
    cases heq
    exact absurd rfl h
  · rfl

/-- It waits on. -/
theorem Missed.step (h : Missed encode decode answer n i)
    (hanswer : ∀ payload ∈ (answer.signals .answerer).map encode, ∀ sdp,
      decode payload ≠ some (.offer sdp))
    (hst : Advance encode decode (fun _ _ => none) answer n n') :
    Missed encode decode answer n' i := by
  obtain ⟨off', c', hother⟩ := h.ended
  cases hst with
  | @publish j off signal left hd =>
    obtain rfl : j = i := (i.eq_or_eq_other j).resolve_right fun hj => by
      rw [hj, hother] at hd
      cases hd
    refine ⟨by simpa using h.ended, by simpa using h.missed, ?_, by simp [Dance.proceeded]⟩
    simpa [hd, Dance.unpublished, or_assoc] using h.calm
  | @consume j off hd =>
    obtain rfl : j = i := (i.eq_or_eq_other j).resolve_right fun hj => by
      rw [hj, hother] at hd
      cases hd
    refine ⟨by simpa using h.ended, by simpa using h.missed, ?_,
      by simp [Dance.proceeded, Consumption.new]⟩
    simpa [hd, Dance.unpublished] using h.calm
  | @send j payload rest hq =>
    rcases i.eq_or_eq_other j with rfl | rfl
    · refine ⟨by simpa using h.ended, by simpa using h.missed, fun p hp => h.calm p ?_,
        by simpa using h.waits⟩
      simp [hq] at hp ⊢
      tauto
    · refine ⟨by simpa using h.ended, fun p hp => h.missed p ?_, by simpa using h.calm,
        by simpa using h.waits⟩
      simp [hq] at hp ⊢
      tauto
  | @deliver j payload rest hw =>
    rcases i.eq_or_eq_other j with rfl | rfl
    · have hsame : (n j).dance.roused.unpublished answer = (n j).dance.unpublished answer ∧
          (n j).dance.roused.proceeded = (n j).dance.proceeded := by
        cases (n j).dance <;> exact ⟨rfl, rfl⟩
      refine ⟨by simpa using h.ended, fun p hp => h.missed p ?_, ?_, ?_⟩
      · have hroom := @Party.mem_file_inbox { n j with wire := rest } payload p
        simp [hw, Party.file] at hp hroom ⊢
        tauto
      · simpa [Party.file, hsame.1] using h.calm
      · simpa [Party.file, hsame.2] using h.waits
    · refine ⟨?_, by simpa [Party.file] using h.missed, fun p hp => h.calm p ?_,
        by simpa using h.waits⟩
      · simp [Party.file, hother, Dance.roused]
      · have hroom := @Party.mem_file_inbox { n i.other with wire := rest } payload p
        simp [hw, Party.file] at hp hroom ⊢
        tauto
  | @hear j payload rest haw hin =>
    rcases i.eq_or_eq_other j with rfl | rfl
    · have hmissed := h.missed payload (by simp [hin])
      have hframe := (n j).hear_frame payload rest
      generalize hd : (n j).dance.hear decode (fun _ _ => none) answer payload = dance
      obtain ⟨hqueue, hwire, -, -, hinbox⟩ := hframe dance
      have hdance : ((n j).hear payload rest dance).dance = dance := by cases dance <;> rfl
      -- An answerer that it may spawn publishes no offer.
      have hnext : dance.proceeded = none ∧ (dance.unpublished answer =
          (n j).dance.unpublished answer ∨ dance.unpublished answer = answer.signals .answerer) := by
        rcases @Dance.hear_cases decode (fun _ _ => none) answer _ payload haw with
          hf | ⟨he, -, hf⟩ | ⟨-, sdp, -, hf⟩ | ⟨off, c, he, hc, -, hf⟩ <;> cases hd.symm.trans hf
        · exact ⟨rfl, .inr rfl⟩
        · exact ⟨rfl, .inr rfl⟩
        · exact ⟨rfl, .inr rfl⟩
        · exact ⟨Dance.proceeded_consuming (Consumption.take_ne_ok hc hmissed),
            .inl (by rw [he]; rfl)⟩
      refine ⟨by simpa using h.ended, fun p hp => h.missed p ?_, fun p hp => ?_, ?_⟩
      · have hrest : p ∈ _ → p ∈ rest := fun hmem => hinbox.subset hmem
        simp [hin, hwire] at hp hrest ⊢
        tauto
      · rw [update_self, update_of_ne j.other_ne, hqueue, hdance] at hp
        rcases hnext.2 with hu | hu <;> rw [hu] at hp
        · exact h.calm p hp
        · rcases List.mem_append.1 hp with hp | hp
          · exact h.calm p (List.mem_append_left _ hp)
          · exact hanswer p hp
      · rw [update_self, hdance]
        exact hnext.1
    · rw [hother] at haw ⊢
      have hc : c'.result = none := by simpa [Dance.awaits] using haw
      have hcalm := h.calm payload (by simp [hin])
      rw [Dance.hear_consuming (Consumption.take_ne_error hc hcalm)]
      refine ⟨?_, by simpa [Party.hear, Party.take] using h.missed, fun p hp => h.calm p ?_,
        by simpa using h.waits⟩
      · simp [Party.hear, Party.take]
      · simp [hin, Party.hear, Party.take] at hp ⊢
        tauto

/-- So an agreement is not to be had. -/
theorem Missed.not_inevitable (h : Missed encode decode answer n i)
    (hanswer : ∀ payload ∈ (answer.signals .answerer).map encode, ∀ sdp,
      decode payload ≠ some (.offer sdp)) :
    ¬(undisturbed encode decode answer).Inevitable (Agreed offer answer) n := by
  intro hagreed
  obtain ⟨n', hl, hleft, hright⟩ := hagreed.leads
  have hmissed : Missed encode decode answer n' i := by
    clear hagreed hleft hright
    induction hl with
    | refl => exact h
    | tail _ hst ih => exact ih.step hanswer hst
  have hwaits := hmissed.waits
  cases i
  · cases hwaits.symm.trans hleft
  · cases hwaits.symm.trans hright

/-! ## Runs -/

/-- A side may publish all of its signals at once. -/
theorem publishes {off : Option String} {left : List Signal}
    (hd : (n i).dance = .publishing off left) :
    ∃ n', (undisturbed encode decode answer).Leads n n' ∧ n' i = { n i with
        dance := .consuming off .new
        queue := (n i).queue ++ left.map encode
        published := (n i).published ++ left } ∧ n' i.other = n i.other := by
  induction left generalizing n with
  | nil => exact ⟨_, .single (.consume hd), by simp, by simp⟩
  | cons signal left ih =>
    obtain ⟨n', hl, hi, hother⟩ := @ih (update n i { n i with
      dance := .publishing off left
      queue := (n i).queue ++ [encode signal]
      published := (n i).published ++ [signal] }) (by simp)
    exact ⟨n', .head (.publish hd) hl, by simp [hi], by simp [hother]⟩

/-- Some of the signals that it has published may be sent, -/
theorem sends {before after : List Bytes} (hq : (n i).queue = before ++ after) :
    ∃ n', (undisturbed encode decode answer).Leads n n' ∧ n' i = { n i with queue := after } ∧
      n' i.other = { n i.other with wire := (n i.other).wire ++ before } := by
  induction before generalizing n with
  | nil =>
    rw [List.nil_append] at hq
    exact ⟨n, .refl, by rw [← hq], by rw [List.append_nil]⟩
  | cons payload before ih =>
    obtain ⟨n', hl, hi, hother⟩ := @ih (update (update n i { n i with queue := before ++ after })
      i.other { n i.other with wire := (n i.other).wire ++ [payload] }) (by simp)
    exact ⟨n', .head (.send hq) hl, by simp [hi], by simp [hother]⟩

/-- and arrive at the other side, whose inbox keeps the first of them. -/
theorem delivers {before after : List Bytes} (hw : (n i).wire = before ++ after)
    (hlength : (n i).inbox.length ≤ inboxCap) :
    ∃ n', (undisturbed encode decode answer).Leads n n' ∧ n' i = { n i with
        dance := if before = [] then (n i).dance else (n i).dance.roused
        wire := after
        inbox := ((n i).inbox ++ before).take inboxCap } ∧ n' i.other = n i.other := by
  induction before generalizing n with
  | nil =>
    rw [List.nil_append] at hw
    refine ⟨n, .refl, ?_, rfl⟩
    rw [if_pos rfl, ← hw, List.append_nil, List.take_of_length_le hlength]
  | cons payload before ih =>
    let p := Party.file { n i with wire := before ++ after } payload
    have hp : p.inbox.length ≤ inboxCap ∧
        (p.inbox ++ before).take inboxCap = ((n i).inbox ++ payload :: before).take inboxCap := by
      simp only [p, Party.file]
      split
      · rename_i hroom
        exact ⟨by simpa [Nat.succ_le_iff] using hroom, by rw [List.append_assoc]; rfl⟩
      · rename_i hfull
        have hcap := hlength.antisymm (Nat.not_lt.1 hfull)
        refine ⟨hlength, ?_⟩
        rw [← hcap, List.take_left, List.take_left]
    obtain ⟨n', hl, hi, hother⟩ := @ih (update n i p) (by simp [p, Party.file])
      (by simpa using hp.1)
    refine ⟨n', .head (.deliver hw) hl, ?_, by simp [hother]⟩
    have hroused : (n i).dance.roused.roused = (n i).dance.roused := by
      cases (n i).dance <;> rfl
    simp only [hi, p, update_self, Party.file, hroused, if_neg (List.cons_ne_nil _ _), ite_self]
    rw [← hp.2]
    rfl

/-- An inbox that does not hold all of the signals has no `done`. -/
theorem not_done_of_take {l : List Signal} {role : Role} {p : Publication}
    (hl : l = p.signals role) (hcodec : ∀ signal ∈ l, decode (encode signal) = some signal)
    (hlong : inboxCap < l.length) :
    ∀ payload ∈ (l.map encode).take inboxCap, decode payload ≠ some .done := by
  intro payload hmem
  have hinit : l = (role.describe p.sdp :: p.gathered) ++ [.done] := by
    rw [hl, Publication.signals, Publication.trickle_eq]
    rfl
  rw [← List.map_take] at hmem
  obtain ⟨signal, hsignal, rfl⟩ := List.mem_map.1 hmem
  rw [hcodec signal (List.mem_of_mem_take hsignal)]
  rw [hinit, List.length_append, List.length_singleton] at hlong
  rw [hinit, List.take_append_of_le_length (Nat.lt_succ_iff.1 hlong)] at hsignal
  rintro ⟨⟩
  rcases List.mem_cons.1 (List.mem_of_mem_take hsignal) with h | h
  · cases role <;> cases h
  · exact absurd rfl (p.gathered_spec.1 _ h).1

/-- No answerer publishes an offer, and no offerer a second one. -/
theorem Codec.no_offer (hcodec : Codec encode decode offer answer) {l : List Signal} {i : Side}
    (hl : ∀ signal ∈ l, signal ∈ i.signals offer answer ∧ signal.isOffer = false) :
    ∀ payload ∈ l.map encode, ∀ sdp, decode payload ≠ some (.offer sdp) := by
  intro payload hmem sdp hd
  obtain ⟨signal, hsignal, rfl⟩ := List.mem_map.1 hmem
  obtain ⟨hi, hoffer⟩ := hl signal hsignal
  rw [hcodec i signal hi, Option.some.injEq] at hd
  rw [hd] at hoffer
  cases hoffer

theorem Codec.answers (hcodec : Codec encode decode offer answer) :
    ∀ payload ∈ (answer.signals .answerer).map encode, ∀ sdp,
      decode payload ≠ some (.offer sdp) := by
  refine @Codec.no_offer encode decode offer answer hcodec _ .right fun signal hsignal =>
    ⟨hsignal, ?_⟩
  rcases List.mem_cons.1 hsignal with rfl | h
  · rfl
  · exact answer.trickle_isOffer signal h

/-- If the signals of the offerer do not fit, the answerer may miss its `done`. -/
theorem missed_right (hcodec : Codec encode decode offer answer)
    (hlong : inboxCap < (offer.signals .offerer).length) :
    ∃ n, (undisturbed encode decode answer).Leads (Negotiation.offering offer) n ∧
      Missed encode decode answer n .right := by
  obtain ⟨n₁, h₁, hleft₁, hright₁⟩ := @publishes encode decode answer (Negotiation.offering offer)
    .left none (offer.signals .offerer) rfl
  obtain ⟨n₂, h₂, hleft₂, hright₂⟩ := @sends encode decode answer n₁ .left
    ((offer.signals .offerer).map encode) [] (by rw [hleft₁]; exact (List.append_nil _).symm)
  rw [Side.other_left] at hright₁ hright₂
  obtain ⟨n₃, h₃, hright₃, hleft₃⟩ := @delivers encode decode answer n₂ .right
    ((offer.signals .offerer).map encode) []
    (by rw [hright₂, hright₁]; exact (List.append_nil _).symm)
    (by rw [hright₂, hright₁]; exact Nat.zero_le _)
  rw [Side.other_right] at hleft₃
  have hmissed := not_done_of_take rfl (hcodec .left) hlong
  have hcalm := hcodec.answers
  simp only [hright₂, hright₁, Negotiation.offering, Party.new] at hright₃
  simp only [hleft₂, hleft₁, Negotiation.offering, Party.new] at hleft₃
  refine ⟨n₃, (h₁.trans h₂).trans h₃, ?_, ?_, ?_, ?_⟩
  · exact ⟨none, .new, by rw [Side.other_right, hleft₃]⟩
  · simpa [hleft₃, hright₃] using hmissed
  · simpa [hleft₃, hright₃, Publication.signals, Dance.roused, Dance.unpublished] using hcalm
  · simp [hright₃, Publication.signals, Dance.roused, Dance.proceeded]

/-- The right side may take the offer, when the left one has published all of its signals and sent
    no more of them. -/
theorem accepts (hcodec : Codec encode decode offer answer) :
    ∃ n, (undisturbed encode decode answer).Leads (Negotiation.offering offer) n ∧
      (n .left).dance = .consuming none .new ∧ (n .left).queue = offer.trickle.map encode ∧
      (n .left).wire = [] ∧ (n .left).inbox = [] ∧
      (n .right).dance = .publishing (some offer.sdp) (answer.signals .answerer) ∧
      (n .right).queue = [] ∧ (n .right).wire = [] ∧ (n .right).inbox = [] := by
  obtain ⟨n₁, h₁, hleft₁, hright₁⟩ := @publishes encode decode answer (Negotiation.offering offer)
    .left none (offer.signals .offerer) rfl
  obtain ⟨n₂, h₂, hleft₂, hright₂⟩ := @sends encode decode answer n₁ .left
    [encode (.offer offer.sdp)] (offer.trickle.map encode) (by rw [hleft₁]; rfl)
  rw [Side.other_left] at hright₁ hright₂
  obtain ⟨n₃, h₃, hright₃, hleft₃⟩ := @delivers encode decode answer n₂ .right
    [encode (.offer offer.sdp)] [] (by rw [hright₂, hright₁]; rfl)
    (by rw [hright₂, hright₁]; exact Nat.zero_le _)
  rw [Side.other_right] at hleft₃
  simp only [hright₂, hright₁, Negotiation.offering, Party.new] at hright₃
  simp only [hleft₂, hleft₁, Negotiation.offering, Party.new] at hleft₃
  have hhear := @Advance.hear encode decode (fun _ _ => none) answer n₃ .right
    (encode (.offer offer.sdp)) [] (by rw [hright₃]; rfl) (by rw [hright₃]; rfl)
  have haccept : (n₃ .right).dance.hear decode (fun _ _ => none) answer (encode (.offer offer.sdp)) =
      .publishing (some offer.sdp) (answer.signals .answerer) := by
    simp [hright₃, Dance.roused, Dance.hear, nextSignal, hcodec.right.1]
  rw [haccept] at hhear
  refine ⟨_, ((h₁.trans h₂).trans h₃).tail hhear, ?_⟩
  simp [hleft₃, hright₃, Party.hear, Party.take]

/-- If the signals of the answerer do not fit, the offerer may miss its `done`. -/
theorem missed_left (hcodec : Codec encode decode offer answer)
    (hlong : inboxCap < (answer.signals .answerer).length) :
    ∃ n, (undisturbed encode decode answer).Leads (Negotiation.offering offer) n ∧
      Missed encode decode answer n .left := by
  obtain ⟨n, h, hdance, hqueue, hwire, hinbox, hdance', hqueue', hwire', hinbox'⟩ :=
    @accepts encode decode offer answer hcodec
  obtain ⟨n₁, h₁, hright₁, hleft₁⟩ := @publishes encode decode answer n .right _ _ hdance'
  obtain ⟨n₂, h₂, hright₂, hleft₂⟩ := @sends encode decode answer n₁ .right
    ((answer.signals .answerer).map encode) [] (by rw [hright₁]; simp [hqueue'])
  rw [Side.other_right] at hleft₁ hleft₂
  obtain ⟨n₃, h₃, hleft₃, hright₃⟩ := @delivers encode decode answer n₂ .left
    ((answer.signals .answerer).map encode) [] (by rw [hleft₂, hleft₁]; simp [hwire])
    (by rw [hleft₂, hleft₁, hinbox]; exact Nat.zero_le _)
  rw [Side.other_left] at hright₃
  have hmissed := not_done_of_take rfl (hcodec .right) hlong
  have hcalm := @Codec.no_offer encode decode offer answer hcodec offer.trickle .left
    fun signal hsignal => ⟨List.mem_cons_of_mem _ hsignal, offer.trickle_isOffer signal hsignal⟩
  refine ⟨n₃, ((h.trans h₁).trans h₂).trans h₃, ?_, ?_, ?_, ?_⟩
  · exact ⟨_, .new, by rw [Side.other_left, hright₃, hright₂, hright₁]⟩
  · simpa [hleft₃, hleft₂, hleft₁, hright₃, hright₂, hinbox] using hmissed
  · simpa [hleft₃, hleft₂, hleft₁, hright₃, hright₂, hright₁, hinbox', hwire', hqueue, hdance,
      Dance.roused, Dance.unpublished] using hcalm
  · simp [hleft₃, hleft₂, hleft₁, hdance, Dance.roused, Dance.proceeded, Consumption.new]

theorem Dance.proceeded_eq_some {dance : Dance} {off : Option String} {applied : List Remote} :
    dance.proceeded = some (off, applied) ↔ dance = .consuming off ⟨applied, some (.ok ())⟩ := by
  constructor
  · intro h
    rw [proceeded.eq_def] at h
    split at h
    · cases h
      rfl
    · cases h
  · rintro rfl
    rfl

/-- A dance that has gone on takes no more part in the signaling. -/
theorem Advance.proceeded {refuses : List Remote → Remote → Option String}
    (hst : Advance encode decode refuses answer n n') {x : Option String × List Remote}
    (h : (n i).dance.proceeded = some x) : (n' i).dance.proceeded = some x := by
  have hd := Dance.proceeded_eq_some.1 h
  cases hst with
  | @publish j off signal left hpublishing =>
    have hij : i ≠ j := by
      rintro rfl
      cases hd.symm.trans hpublishing
    rwa [update_of_ne hij]
  | @consume j off hpublishing =>
    have hij : i ≠ j := by
      rintro rfl
      cases hd.symm.trans hpublishing
    rwa [update_of_ne hij]
  | @send j payload rest hq =>
    rcases j.eq_or_eq_other i with rfl | rfl <;> simpa using h
  | @deliver j payload rest hw =>
    rcases j.eq_or_eq_other i with rfl | rfl
    · simpa [Party.file, hd, Dance.roused] using h
    · simpa using h
  | @hear j payload rest haw hin =>
    have hij : i ≠ j := by
      rintro rfl
      rw [hd] at haw
      cases haw
    rwa [update_of_ne hij]

/-- An agreement stays. -/
theorem Agreed.step (h : Agreed offer answer n)
    (hst : Advance encode decode (fun _ _ => none) answer n n') : Agreed offer answer n' :=
  ⟨hst.proceeded h.1, hst.proceeded h.2⟩

/-- **Undisturbed, a negotiation ends in an agreement** if and only if the signals of both sides
    fit into an inbox. -/
theorem negotiation_agrees_iff (hcodec : Codec encode decode offer answer) :
    (undisturbed encode decode answer).Inevitable (Agreed offer answer)
        (Negotiation.offering offer) ↔
      offer.candidates.length + 3 ≤ inboxCap ∧ answer.candidates.length + 3 ≤ inboxCap := by
  have hfits : Fits offer answer ↔
      offer.candidates.length + 3 ≤ inboxCap ∧ answer.candidates.length + 3 ≤ inboxCap := by
    rw [Fits, Side.forall_iff .left]
    simp [Side.signals]
  rw [← hfits]
  refine ⟨fun hagreed i => ?_, agreed_inevitable hcodec⟩
  by_contra hlong
  obtain ⟨n, i, hl, hmissed⟩ : ∃ n i, (undisturbed encode decode answer).Leads
      (Negotiation.offering offer) n ∧ Missed encode decode answer n i := by
    cases i
    · obtain ⟨n, h⟩ := missed_right hcodec (Nat.not_le.1 hlong)
      exact ⟨n, .right, h⟩
    · obtain ⟨n, h⟩ := missed_left hcodec (Nat.not_le.1 hlong)
      exact ⟨n, .left, h⟩
  exact hmissed.not_inevitable hcodec.answers
    (hagreed.further (fun _ _ hst h => h.step hst) hl)

end Missed

end IrohEndpoint
