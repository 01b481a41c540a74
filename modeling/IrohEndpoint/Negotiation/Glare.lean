import IrohEndpoint.Lib.Inevitable
import IrohEndpoint.Negotiation.Basic

/-!
# Two offers

A negotiation that nothing disturbs, of two sides that offer at the same time. Each of them takes
the offer of the other, and fails at it. What comes after the offer spawns answerers, which await
an offer and fail as well: in the end neither side has a session, and neither has gone on
(`negotiation_glares`).
-/

namespace IrohEndpoint

open Transition Function

/-! ## Two offers -/

/-- Both sides begin to offer. -/
def Negotiation.glaring (offer : Side → Publication) : Negotiation :=
  fun i => .new (.publishing none ((offer i).signals .offerer))

/-- Neither side has a session, and no signal is left. -/
def Dissolved (n : Negotiation) : Prop :=
  ∀ i, (n i).dance = .vacant ∧ (n i).queue = [] ∧ (n i).wire = [] ∧ (n i).inbox = []

section Glare

variable {encode : Signal → Bytes} {decode : Bytes → Option Signal} {offer : Side → Publication}
  {answer : Publication} {n n' : Negotiation} {i : Side} {payload : Bytes} {rest : List Bytes}

/-- The signals that an offerer is still to publish. -/
def Dance.left : Dance → List Signal
  | publishing _ left => left
  | vacant | expecting | consuming _ _ => []

variable (encode) in
/-- What side `i` may still be given. -/
def Negotiation.ahead (n : Negotiation) (i : Side) : List Bytes :=
  (n i).inbox ++ (n i).wire ++ (n i.other).queue ++ (n i.other).dance.left.map encode

variable (decode) in
/-- The payloads are signals other than offers. -/
def Trickled (payloads : List Bytes) : Prop :=
  ∀ payload ∈ payloads, ∃ signal, decode payload = some signal ∧ signal.isOffer = false

variable (decode) in
/-- How a side goes whose offer meets another one, with what it may still be given. -/
inductive Clashes : Dance → List Bytes → List Bytes → Prop
  /-- It has not taken the offer of the other side yet. -/
  | offers {left : List Signal} {inbox rest : List Bytes} {offered : Bytes} {sdp : String} :
      decode offered = some (.offer sdp) → Trickled decode rest →
      Clashes (.publishing none left) inbox (offered :: rest)
  | offered {inbox rest : List Bytes} {offered : Bytes} {sdp : String} :
      decode offered = some (.offer sdp) → Trickled decode rest →
      Clashes (.consuming none .new) inbox (offered :: rest)
  /-- It has, and is given what comes after it. -/
  | vacant {ahead : List Bytes} : Trickled decode ahead → Clashes .vacant [] ahead
  | expecting {inbox ahead : List Bytes} :
      inbox ≠ [] → Trickled decode ahead → Clashes .expecting inbox ahead

/-- The rank of a dance. -/
def Dance.standing : Dance → ℕ
  | vacant => 0
  | expecting => 1
  | consuming _ _ => 2
  | publishing _ left => 5 * left.length + 3

/-- The rank of a side. -/
def Party.unrest (p : Party) : ℕ :=
  p.dance.standing + 4 * p.queue.length + 3 * p.wire.length + p.inbox.length

/-- The rank of a negotiation. -/
def Negotiation.unrest (n : Negotiation) : ℕ := (n .left).unrest + (n .right).unrest

theorem Negotiation.unrest_eq (n : Negotiation) (i : Side) :
    n.unrest = (n i).unrest + (n i.other).unrest := by
  cases i
  · rfl
  · exact add_comm _ _

/-- Some of the payloads may be lost. -/
theorem Trickled.subset {payloads payloads' : List Bytes} (h : Trickled decode payloads)
    (hsub : payloads' ⊆ payloads) : Trickled decode payloads' :=
  fun payload hmem => h payload (hsub hmem)

/-- At the first signal that it takes, a dance fails. -/
theorem Clashes.hear {dance : Dance} {inbox ahead : List Bytes}
    (h : Clashes decode dance inbox (payload :: ahead)) (haw : dance.awaits = true)
    (refuses : List Remote → Remote → Option String) :
    dance.hear decode refuses answer payload = .vacant ∧ Trickled decode ahead := by
  cases h with
  | offers | vacant => cases haw
  | offered hd htrickled =>
    exact ⟨by simp [Dance.hear, Consumption.take, Consumption.new, nextSignal, hd, Consumption.body],
      htrickled⟩
  | expecting _ htrickled =>
    obtain ⟨signal, hd, hoffer⟩ := htrickled payload List.mem_cons_self
    refine ⟨?_, htrickled.subset (List.subset_cons_self _ _)⟩
    cases signal with
    | offer => cases hoffer
    | _ => simp [Dance.hear, nextSignal, hd]

/-- It has not gone on. -/
theorem Clashes.proceeded {dance : Dance} {inbox ahead : List Bytes}
    (h : Clashes decode dance inbox ahead) : dance.proceeded = none := by
  cases h <;> rfl

/-- A signal is filed, or dropped. -/
theorem Clashes.file {dance : Dance} {inbox more : List Bytes}
    (h : Clashes decode dance inbox (inbox ++ payload :: more)) {inbox' : List Bytes}
    (hinbox : inbox' = if inbox.length < inboxCap then inbox ++ [payload] else inbox) :
    Clashes decode dance.roused inbox' (inbox' ++ more) := by
  split at hinbox
  · have hne : inbox' ≠ [] := by simp [hinbox]
    have hsame : inbox' ++ more = inbox ++ payload :: more := by simp [hinbox]
    rw [hsame]
    generalize inbox ++ payload :: more = ahead at h ⊢
    cases h with
    | offers hd htrickled => exact .offers hd htrickled
    | offered hd htrickled => exact .offered hd htrickled
    | vacant htrickled => exact .expecting hne htrickled
    | expecting _ htrickled => exact .expecting hne htrickled
  · rename_i hfull
    rw [hinbox]
    -- The offer is the first of a full inbox, and is not dropped.
    cases inbox with
    | nil => exact absurd (by decide) hfull
    | cons first inbox =>
      have hsub : inbox ++ more ⊆ inbox ++ payload :: more := by simp
      cases h with
      | offers hd htrickled => exact .offers hd (htrickled.subset hsub)
      | offered hd htrickled => exact .offered hd (htrickled.subset hsub)
      | expecting hne htrickled =>
        exact .expecting hne (htrickled.subset (List.cons_subset_cons first hsub))

variable (encode decode) in
/-- Both sides go as offers that meet. -/
def Negotiation.Clashing (n : Negotiation) : Prop :=
  ∀ i, Clashes decode (n i).dance (n i).inbox (n.ahead encode i)

/-- A step of two offers that meet lowers the rank. -/
theorem Negotiation.Clashing.step (h : n.Clashing encode decode)
    (hst : Advance encode decode (fun _ _ => none) answer n n') :
    n'.Clashing encode decode ∧ n'.unrest < n.unrest := by
  cases hst with
  | @publish i off signal left hd =>
    have hi := h i
    have hother := h i.other
    rw [ahead, Side.other_other, hd] at hother
    constructor
    · refine (Side.forall_iff i).2 ⟨?_, by simpa [ahead, Dance.left] using hother⟩
      have hsame : ahead encode (update n i { n i with
          dance := .publishing off left
          queue := (n i).queue ++ [encode signal]
          published := (n i).published ++ [signal] }) i = n.ahead encode i := by
        simp [ahead]
      rw [hsame, update_self]
      dsimp only
      generalize n.ahead encode i = ahead at hi ⊢
      rw [hd] at hi
      cases hi with
      | offers hoffer htrickled => exact .offers hoffer htrickled
    · rw [unrest_eq _ i, unrest_eq n i]
      simp [Party.unrest, hd, Dance.standing]
      omega
  | @consume i off hd =>
    have hi := h i
    have hother := h i.other
    rw [ahead, Side.other_other, hd] at hother
    constructor
    · refine (Side.forall_iff i).2 ⟨?_, by simpa [ahead, Dance.left] using hother⟩
      have hsame : ahead encode (update n i { n i with dance := .consuming off .new }) i =
          n.ahead encode i := by
        simp [ahead]
      rw [hsame, update_self]
      dsimp only
      generalize n.ahead encode i = ahead at hi ⊢
      rw [hd] at hi
      cases hi with
      | offers hoffer htrickled => exact .offered hoffer htrickled
    · rw [unrest_eq _ i, unrest_eq n i]
      simp [Party.unrest, hd, Dance.standing]
  | @send i payload rest hq =>
    constructor
    · have hi := h i
      have hother := h i.other
      simp only [ahead, Side.other_other, hq] at hi hother
      exact (Side.forall_iff i).2 ⟨by simpa [ahead] using hi, by simpa [ahead] using hother⟩
    · rw [unrest_eq _ i, unrest_eq n i]
      simp [Party.unrest, hq]
      omega
  | @deliver i payload rest hw =>
    have hi := h i
    have hother := h i.other
    constructor
    · have hsame : (n i).dance.roused.left = (n i).dance.left := by cases (n i).dance <;> rfl
      refine (Side.forall_iff i).2 ⟨?_, by simpa [ahead, Party.file, hsame] using hother⟩
      simp only [ahead, hw, List.append_assoc, List.cons_append] at hi
      simpa [ahead, Party.file] using hi.file rfl
    · have hstanding : (n i).dance.roused.standing ≤ (n i).dance.standing + 1 := by
        cases (n i).dance <;> simp [Dance.roused, Dance.standing]
      rw [unrest_eq _ i, unrest_eq n i]
      simp only [Party.unrest, Party.file, update_self, update_of_ne i.other_ne, hw, List.length_cons]
      split <;> simp <;> omega
  | @hear i payload rest haw hin =>
    have hi := h i
    have hother := h i.other
    simp only [ahead, hin, List.cons_append] at hi
    obtain ⟨hvacant, htrickled⟩ := @Clashes.hear decode answer payload _ _ _ hi haw fun _ _ => none
    have hleft : (n i).dance.left = [] := by
      generalize (n i).dance = dance at haw ⊢
      cases dance with
      | publishing => cases haw
      | _ => rfl
    rw [hvacant]
    constructor
    · refine (Side.forall_iff i).2 ⟨?_, ?_⟩
      · simp only [ahead, Party.hear, Party.take, Party.vacate, update_self,
          update_of_ne i.other_ne, List.nil_append]
        exact .vacant (htrickled.subset (by simp))
      · simp only [ahead, Side.other_other, hleft] at hother
        simpa [ahead, Party.hear, Party.take, Party.vacate, Dance.left] using hother
    · rw [unrest_eq _ i, unrest_eq n i]
      simp [Party.unrest, Party.hear, Party.take, Party.vacate, hin, Dance.standing]
      omega

/-- They only come to an end when neither side has a session. -/
theorem Negotiation.Clashing.dissolved (h : n.Clashing encode decode)
    (hend : ∀ n', ¬Advance encode decode (fun _ _ => none) answer n n') : Dissolved n := by
  have hidle := Negotiation.Idle.of_end hend
  intro i
  have hleft : (n i.other).dance.left = [] := by
    have hsilent := hidle.published i.other
    generalize (n i.other).dance = dance at hsilent ⊢
    cases dance with
    | publishing => exact absurd rfl (hsilent _ _)
    | _ => rfl
  have hi := h i
  have hinbox := hidle.inbox i
  have hsilent := hidle.published i
  simp only [ahead, hidle.queue, hidle.wire, hleft, List.append_nil, List.map_nil] at hi
  have hnone : (n i).dance = .vacant ∧ (n i).inbox = [] := by
    generalize (n i).dance = dance at hi hinbox hsilent ⊢
    generalize (n i).inbox = inbox at hi hinbox ⊢
    cases hi with
    | offers => exact absurd rfl (hsilent _ _)
    | offered => cases hinbox rfl
    | vacant => exact ⟨rfl, rfl⟩
    | expecting hne => exact absurd (hinbox rfl) hne
  exact ⟨hnone.1, hidle.queue i, hidle.wire i, hnone.2⟩

/-- They start so. -/
theorem Negotiation.clashing_glaring (hcodec : ∀ i, ∀ signal ∈ (offer i).signals .offerer,
    decode (encode signal) = some signal) : (glaring offer).Clashing encode decode := by
  intro i
  refine .offers (hcodec i.other _ List.mem_cons_self) fun payload hmem => ?_
  obtain ⟨signal, hsignal, rfl⟩ := List.mem_map.1 hmem
  exact ⟨signal, hcodec i.other signal (List.mem_cons_of_mem _ hsignal),
    (offer i.other).trickle_isOffer signal hsignal⟩

/-- **Two offers that meet** come to nothing: in the end neither side has a session, and neither
    has ever gone on from the signaling. -/
theorem negotiation_glares (hcodec : ∀ i, ∀ signal ∈ (offer i).signals .offerer,
    decode (encode signal) = some signal) :
    (undisturbed encode decode answer).Inevitable Dissolved (Negotiation.glaring offer) ∧
      ∀ n, (undisturbed encode decode answer).Leads (Negotiation.glaring offer) n →
        ∀ i, (n i).dance.proceeded = none := by
  have hstart := Negotiation.clashing_glaring hcodec
  constructor
  · refine System.Inevitable.of_rank wellFounded_lt Negotiation.unrest
      (I := Negotiation.Clashing encode decode) (fun n h hnot => ?_) (fun n n' h _ hst => ?_) hstart
    · by_contra hend
      exact hnot (h.dissolved fun n' hst => hend ⟨n', hst⟩)
    · exact .inr (h.step hst)
  · intro n hl i
    have hclash : n.Clashing encode decode := by
      induction hl with
      | refl => exact hstart
      | tail _ hst ih => exact (ih.step hst).1
    exact (hclash i).proceeded

end Glare

end IrohEndpoint
