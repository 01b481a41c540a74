import IrohEndpoint.System.Step

/-!
# What a signaling session consumes

Once a session has published its own signals, `consume_signaling` takes those of its peer
from the inbox that the pump fills, one after the other, and hands the answer and the
candidates to the peer connection. A payload that is no signal is skipped, `done` ends it.

How it goes on is a fold over the payloads it takes (`consumeSignaling`). The session itself
takes them with `next_signal`, from the inbox of an endpoint that runs around it
(`ConsumeStep`), and follows the fold (`consumes_reachable`).

An offer should be dropped, as that of a second session of the same peer. The pump files it
like every other signal (`Sys.handleSignal_inbox`), and `consume_signaling` fails at it. So one
more offer disturbs the session, unless the consumption has ended before it comes to it, or
would fail at an offer that comes next (`consume_offer_iff`).
-/

namespace IrohEndpoint

open Transition

/-! ## Signals -/

/-- A signal of the peer. -/
inductive Signal
  | offer (sdp : String)
  | answer (sdp : String)
  | candidate (candidate : String) (sdpMid : Option String) (sdpMlineIndex : Option UInt16)
  | endOfCandidates
  | done
  deriving DecidableEq

/-- What is handed to the peer connection: the remote description, or an ICE candidate. -/
inductive Remote
  | description (sdp : String)
  | iceCandidate (candidate : String) (sdpMid : Option String) (sdpMlineIndex : Option UInt16)
  deriving DecidableEq

/-- What a signal hands to the peer connection. -/
def Signal.remote : Signal → Option Remote
  | answer sdp => some (.description sdp)
  | candidate sdp sdpMid sdpMlineIndex => some (.iceCandidate sdp sdpMid sdpMlineIndex)
  | offer _ | endOfCandidates | done => none

/-- The error of a peer connection. -/
def rtc (detail : String) : Error := .connectFailed ("webrtc: " ++ detail)

/-- How the wait for a signal ends once the inbox is empty: it goes on, or the endpoint was
    closed, or the deadline is over. -/
inductive Silence
  | parked
  | closed
  | timedOut
  deriving DecidableEq

/-- What `next_signal` reports then. -/
def Silence.report : Silence → Option (Except Error Unit)
  | parked => none
  | closed => some (.error .closed)
  | timedOut => some (.error (.connectFailed "webrtc signaling timed out"))

/-! ## The consumption -/

/-- How far `consume_signaling` has come: what it has handed to the peer connection, and what
    it has returned. -/
structure Consumption where
  applied : List Remote
  result : Option (Except Error Unit)

section Consumption

-- `serde_json::from_slice`, and the detail with which the peer connection refuses what it is
-- given after what it was given before.
variable (decode : Bytes → Option Signal) (refuses : List Remote → Remote → Option String)

/-- What `next_signal` makes of a payload: a malformed one is skipped, and `done` ends the
    signals. -/
def nextSignal (payload : Bytes) : Option (Option Signal) :=
  (decode payload).map fun signal => if signal = .done then none else some signal

namespace Consumption

/-- Nothing was consumed yet. -/
def new : Consumption := ⟨[], none⟩

/-- The answer or a candidate is handed to the peer connection. -/
def apply (c : Consumption) (remote : Remote) : Consumption where
  applied := c.applied ++ [remote]
  result := (refuses c.applied remote).map fun detail => .error (rtc detail)

/-- The loop's body, with the signal it was given, or none at the end of them. -/
def body (c : Consumption) : Option Signal → Consumption
  | none => { c with result := some (.ok ()) }
  | some (.offer _) =>
    { c with result := some (.error (.connectFailed "unexpected second offer")) }
  | some (.answer sdp) => c.apply refuses (.description sdp)
  | some (.candidate sdp sdpMid sdpMlineIndex) =>
    c.apply refuses (.iceCandidate sdp sdpMid sdpMlineIndex)
  -- `next_signal` yields no `done`.
  | some .endOfCandidates | some .done => c

/-- One more payload: nothing is taken any more after the return. -/
def take (c : Consumption) (payload : Bytes) : Consumption :=
  if c.result.isSome then c
  else match nextSignal decode payload with
    | none => c
    | some signal => c.body refuses signal

/-- The inbox stays empty: unless it has returned, the wait for a signal ends. -/
def wait (c : Consumption) (silence : Silence) : Consumption :=
  { c with result := c.result.or silence.report }

end Consumption

/-- What `consume_signaling` makes of the payloads it takes. -/
def consumed (payloads : List Bytes) : Consumption :=
  payloads.foldl (Consumption.take decode refuses) .new

/-- `consume_signaling`, given the payloads that it finds, and how the wait for one more
    ends. -/
def consumeSignaling (payloads : List Bytes) (silence : Silence) : Consumption :=
  (consumed decode refuses payloads).wait silence

/-! ## What ends a consumption -/

/-- What some payloads hand to the peer connection. -/
def remotes (payloads : List Bytes) : List Remote :=
  payloads.filterMap fun payload => (decode payload).bind Signal.remote

/-- The payload ends a consumption after `taken`: it is `done`, or an offer, or is refused by
    the peer connection. -/
def Final (taken : List Bytes) (payload : Bytes) : Prop :=
  decode payload = some .done ∨ (∃ sdp, decode payload = some (.offer sdp)) ∨
    ∃ remote, (decode payload).bind Signal.remote = some remote ∧
      refuses (remotes decode taken) remote ≠ none

/-- One of the payloads ends the consumption. -/
def Over (payloads : List Bytes) : Prop :=
  ∃ taken payload rest, payloads = taken ++ payload :: rest ∧ Final decode refuses taken payload

/-- The first payload that is not skipped is an offer. -/
def OfferNext (payloads : List Bytes) : Prop :=
  ∃ skipped offer sdp rest, payloads = skipped ++ offer :: rest ∧
    (∀ payload ∈ skipped, decode payload = none ∨ decode payload = some .endOfCandidates) ∧
    decode offer = some (.offer sdp)

end Consumption

section

variable {decode : Bytes → Option Signal} {refuses : List Remote → Remote → Option String}
  {c : Consumption} {payload : Bytes} {taken : List Bytes}

/-- One more payload may be the one that ends the consumption. -/
theorem over_concat :
    Over decode refuses (taken ++ [payload]) ↔
      Over decode refuses taken ∨ Final decode refuses taken payload := by
  constructor
  · rintro ⟨taken', payload', rest, heq, hfinal⟩
    rcases List.eq_nil_or_concat rest with rfl | ⟨rest, last, rfl⟩
    · obtain ⟨rfl, hp⟩ := List.append_inj' heq rfl
      cases hp
      exact .inr hfinal
    · rw [List.concat_eq_append, ← List.cons_append, ← List.append_assoc] at heq
      exact .inl ⟨taken', payload', rest, (List.append_inj' heq rfl).1, hfinal⟩
  · rintro (⟨taken', payload', rest, rfl, hfinal⟩ | hfinal)
    · exact ⟨taken', payload', rest ++ [payload], by simp, hfinal⟩
    · exact ⟨taken, payload, [], rfl, hfinal⟩

namespace Consumption

/-- After the return, nothing is taken any more. -/
theorem take_returned (hc : c.result ≠ none) : c.take decode refuses payload = c :=
  if_pos (Option.isSome_iff_ne_none.2 hc)

/-- A wait that goes on changes nothing. -/
theorem wait_parked (c : Consumption) : c.wait .parked = c := by
  rw [wait, Silence.report, Option.or_none]

/-- After the return, no payload matters. -/
theorem foldl_returned (hc : c.result ≠ none) (payloads : List Bytes) :
    payloads.foldl (take decode refuses) c = c := by
  induction payloads with
  | nil => rfl
  | cons payload payloads ih => rw [List.foldl_cons, take_returned hc, ih]

/-- What one more payload does before the return. -/
theorem take_open (hc : c.result = none) :
    (c.take decode refuses payload = c ∧
      (decode payload = none ∨ decode payload = some .endOfCandidates)) ∨
    (c.take decode refuses payload = c.body refuses none ∧ decode payload = some .done) ∨
    (∃ sdp, c.take decode refuses payload = c.body refuses (some (.offer sdp)) ∧
      decode payload = some (.offer sdp)) ∨
    ∃ remote, c.take decode refuses payload = c.apply refuses remote ∧
      (decode payload).bind Signal.remote = some remote := by
  rw [take, hc, if_neg (by simp), nextSignal]
  cases hd : decode payload with
  | none => exact .inl ⟨rfl, .inl rfl⟩
  | some signal =>
    cases signal with
    | offer sdp => exact .inr (.inr (.inl ⟨sdp, rfl, rfl⟩))
    | answer sdp => exact .inr (.inr (.inr ⟨_, rfl, rfl⟩))
    | candidate sdp sdpMid sdpMlineIndex => exact .inr (.inr (.inr ⟨_, rfl, rfl⟩))
    | endOfCandidates => exact .inl ⟨rfl, .inr rfl⟩
    | done => exact .inr (.inl ⟨rfl, rfl⟩)

/-- Before the return, an answer or a candidate is handed to the peer connection. -/
theorem take_remote {remote : Remote} (hc : c.result = none)
    (hd : (decode payload).bind Signal.remote = some remote) :
    c.take decode refuses payload = c.apply refuses remote := by
  rcases @take_open decode refuses c payload hc with
    ⟨-, hd' | hd'⟩ | ⟨-, hd'⟩ | ⟨sdp, -, hd'⟩ | ⟨remote', h, hd'⟩
  · simp [hd'] at hd
  · simp [hd', Signal.remote] at hd
  · simp [hd', Signal.remote] at hd
  · simp [hd', Signal.remote] at hd
  · rw [h, Option.some.inj (hd.symm.trans hd')]

end Consumption

/-- One more payload is taken. -/
theorem consumed_concat :
    consumed decode refuses (taken ++ [payload]) =
      (consumed decode refuses taken).take decode refuses payload := by
  rw [consumed, List.foldl_append, List.foldl_cons, List.foldl_nil, ← consumed]

/-- One more payload hands over what it holds. -/
theorem remotes_concat :
    remotes decode (taken ++ [payload]) =
      remotes decode taken ++ ((decode payload).bind Signal.remote).toList := by
  rw [remotes, List.filterMap_append]
  cases h : (decode payload).bind Signal.remote <;> simp [remotes, h]

/-- Before the return, one more payload ends the consumption, or hands over what it holds. -/
theorem Consumption.take_spec (hc : c.result = none) (happlied : c.applied = remotes decode taken) :
    ((c.take decode refuses payload).result ≠ none ↔ Final decode refuses taken payload) ∧
      ((c.take decode refuses payload).result = none →
        (c.take decode refuses payload).applied = remotes decode (taken ++ [payload])) := by
  rw [remotes_concat]
  rcases @take_open decode refuses c payload hc with
    ⟨h, hd | hd⟩ | ⟨h, hd⟩ | ⟨sdp, h, hd⟩ | ⟨remote, h, hd⟩ <;> rw [h]
  · simp [Final, hd, hc, happlied]
  · simp [Final, hd, hc, happlied, Signal.remote]
  · simp [Final, hd, body]
  · simp [Final, hd, body]
  · have hfinal : Final decode refuses taken payload ↔
        refuses (remotes decode taken) remote ≠ none := by
      refine ⟨?_, fun hne => .inr (.inr ⟨remote, hd, hne⟩)⟩
      rintro (hdone | ⟨sdp, hoffer⟩ | ⟨remote', hd', hne⟩)
      · rw [hdone] at hd
        cases hd
      · rw [hoffer] at hd
        cases hd
      · rwa [Option.some.inj (hd.symm.trans hd')]
    rw [hfinal]
    simp [apply, happlied, hd]

/-- A consumption has returned if one of its payloads has ended it, and has handed over what
    they hold otherwise. -/
theorem consumed_spec (payloads : List Bytes) :
    ((consumed decode refuses payloads).result ≠ none ↔ Over decode refuses payloads) ∧
      ((consumed decode refuses payloads).result = none →
        (consumed decode refuses payloads).applied = remotes decode payloads) := by
  induction payloads using List.reverseRecOn with
  | nil =>
    refine ⟨iff_of_false (fun h => h rfl) ?_, fun _ => rfl⟩
    rintro ⟨taken, payload, rest, heq, -⟩
    cases taken <;> cases heq
  | append_singleton taken payload ih =>
    obtain ⟨hends, happlied⟩ := ih
    rw [consumed_concat, over_concat, ← hends]
    by_cases hc : (consumed decode refuses taken).result = none
    · have hspec := @Consumption.take_spec decode refuses _ payload taken hc (happlied hc)
      exact ⟨by rw [hspec.1]; simp [hc], hspec.2⟩
    · rw [Consumption.take_returned hc]
      exact ⟨iff_of_true hc (.inl hc), fun h => absurd h hc⟩

end

/-! ## The session -/

/-- The signals of a peer that were filed and not yet taken. -/
def Sys.inbox (s : Sys) (peer : EndpointId) : List Bytes :=
  (s.st.signalInboxes.lookup peer).getD []

/-- The session `tid` with `peer` may take a signal. -/
def Sys.Takes (s : Sys) (tid : TaskId) (peer : EndpointId) : Prop :=
  s.quiet = true ∧ ∃ session, s.sessions.lookup tid = some session ∧ session.live = true ∧
    session.peer = peer

/-- A session that consumes the signals of its peer, and the endpoint around it. -/
structure ConsumeSys where
  sys : Sys
  /-- The payloads that were filed for it, and those it has taken. -/
  filed : List Bytes
  taken : List Bytes
  consumption : Consumption
  /-- What is being handed to the peer connection. -/
  giving : Option Remote

section Session

variable (tid : TaskId) (peer : EndpointId) (started : Instant)
  (decode : Bytes → Option Signal) (refuses : List Remote → Remote → Option String)

/-- A step of the session, or of the rest of the endpoint. -/
inductive ConsumeStep : ConsumeSys → ConsumeSys → Prop
  /-- The rest of the endpoint files signals, and takes none. -/
  | around {s : ConsumeSys} {sys : Sys} {new : List Bytes} :
      Step s.sys sys → sys.inbox peer = s.sys.inbox peer ++ new →
      ConsumeStep s { s with sys := sys, filed := s.filed ++ new }
  /-- A payload is taken that hands nothing to the peer connection. -/
  | took {s : ConsumeSys} {st : State} {payload : Bytes} :
      s.sys.Takes tid peer → s.consumption.result = none → s.giving = none →
      s.sys.st.nextSignalCheck peer started s.sys.now = (st, some (.ok payload)) →
      (decode payload).bind Signal.remote = none →
      ConsumeStep s { s with
        sys := { s.sys with st := st }
        taken := s.taken ++ [payload]
        consumption := s.consumption.take decode refuses payload }
  /-- An answer or a candidate is taken, and handed to the peer connection, -/
  | handed {s : ConsumeSys} {st : State} {payload : Bytes} {remote : Remote} :
      s.sys.Takes tid peer → s.consumption.result = none → s.giving = none →
      s.sys.st.nextSignalCheck peer started s.sys.now = (st, some (.ok payload)) →
      (decode payload).bind Signal.remote = some remote →
      ConsumeStep s { s with
        sys := { s.sys with st := st }
        taken := s.taken ++ [payload]
        giving := some remote }
  /-- which has answered. -/
  | given {s : ConsumeSys} {remote : Remote} :
      s.sys.quiet = true → s.giving = some remote →
      ConsumeStep s { s with
        consumption := s.consumption.apply refuses remote
        giving := none }
  | parked {s : ConsumeSys} {st : State} :
      s.sys.Takes tid peer → s.consumption.result = none → s.giving = none →
      s.sys.st.nextSignalCheck peer started s.sys.now = (st, none) →
      ConsumeStep s { s with
        sys := { s.sys with st := { st with waiters := tid :: st.waiters } } }
  /-- The endpoint was closed, or the deadline is over. -/
  | failed {s : ConsumeSys} {st : State} {err : Error} :
      s.sys.Takes tid peer → s.consumption.result = none → s.giving = none →
      s.sys.st.nextSignalCheck peer started s.sys.now = (st, some (.error err)) →
      ConsumeStep s { s with
        sys := { s.sys with st := st }
        consumption := { s.consumption with result := some (.error err) } }

/-- A session from when it begins to consume. -/
def consuming : System ConsumeSys where
  init := {s | endpoint.Reachable s.sys ∧
    s = ⟨s.sys, s.sys.inbox peer, [], .new, none⟩}
  step := ConsumeStep tid peer started decode refuses

end Session

/-- The inbox loses its first signal, or has none. -/
theorem State.popSignalInbox_cases (s : State) (peer : EndpointId) :
    (∃ payload rest, s.signalInboxes.lookup peer = some (payload :: rest) ∧
      s.popSignalInbox peer =
        ({ s with signalInboxes := s.signalInboxes.insert peer rest }, some payload)) ∨
    s.popSignalInbox peer = (s, none) := by
  rw [popSignalInbox]
  split <;> rename_i hl
  · exact .inl ⟨_, _, hl, rfl⟩
  · exact .inr rfl

/-- A check for the next signal takes the first of the inbox, or finds that there is none, or
    that the wait is over. -/
theorem State.nextSignalCheck_cases {s st : State} {peer : EndpointId} {started now : Instant}
    {result : Option (Except Error Bytes)} (h : s.nextSignalCheck peer started now = (st, result)) :
    (∃ payload rest, result = some (.ok payload) ∧
      s.signalInboxes.lookup peer = some (payload :: rest) ∧
      st = { s with signalInboxes := s.signalInboxes.insert peer rest }) ∨
    st = s ∧ (result = none ∨ ∃ (silence : Silence) (err : Error),
      silence.report = some (.error err) ∧ result = some (.error err)) := by
  rw [nextSignalCheck] at h
  split at h
  · cases h
    exact .inr ⟨rfl, .inr ⟨.closed, _, rfl, rfl⟩⟩
  · rcases s.popSignalInbox_cases peer with ⟨payload, rest, hl, hpop⟩ | hpop
    · rw [hpop] at h
      cases h
      exact .inl ⟨payload, rest, rfl, hl, rfl⟩
    · rw [hpop] at h
      cases h
      refine .inr ⟨rfl, ?_⟩
      split
      · exact .inr ⟨.timedOut, _, rfl, rfl⟩
      · exact .inl rfl

/-- The pump files a signal of a peer that has a session, unless the inbox is full. -/
theorem Sys.handleSignal_inbox {s : Sys} {via key : RelayKey} {peer : EndpointId} {payload : Bytes}
    (henabled : s.st.webrtcEnabled = true) (hopen : s.st.closed = false)
    (hslot : s.st.signaling.lookup peer = some key) :
    (s.handleSignal via peer payload).inbox peer =
      s.inbox peer ++ if (s.inbox peer).length < inboxCap then [payload] else [] := by
  rw [handleSignal, State.handleSignal, henabled, hopen, hslot, inbox, inbox]
  simp only [Bool.not_true, Bool.or_self, Bool.false_eq_true, if_false, Option.isNone_some,
    State.wakeWaiters, AList.lookup_insert, Option.getD_some]
  split <;> simp

section Session

variable {tid : TaskId} {peer : EndpointId} {started : Instant}
  {decode : Bytes → Option Signal} {refuses : List Remote → Remote → Option String}
  {s s' : ConsumeSys}

/-- A session follows `consume_signaling`: it has taken the signals of its peer in the order in
    which they were filed, and gone on as that does, given how the wait ended. -/
structure Consumes (peer : EndpointId) (decode : Bytes → Option Signal)
    (refuses : List Remote → Remote → Option String) (s : ConsumeSys) : Prop where
  filed : s.filed = s.taken ++ s.sys.inbox peer
  follows : s.giving = none →
    ∃ silence, s.consumption = consumeSignaling decode refuses s.taken silence
  /-- While the peer connection answers, the consumption waits for it. -/
  giving : ∀ remote, s.giving = some remote → s.consumption.result = none ∧
    consumed decode refuses s.taken = s.consumption.apply refuses remote

/-- A session that has not returned has only waited. -/
theorem Consumes.open_ (h : Consumes peer decode refuses s) (hc : s.consumption.result = none)
    (hg : s.giving = none) : consumed decode refuses s.taken = s.consumption := by
  obtain ⟨silence, hf⟩ := h.follows hg
  rw [hf, consumeSignaling, Consumption.wait] at hc ⊢
  rw [Option.or_eq_none_iff] at hc
  rw [hc.2, Option.or_none]

/-- A payload that is taken was the first of the inbox. -/
theorem Consumes.take (h : Consumes peer decode refuses s) {st : State} {payload : Bytes}
    {now : Instant} (hcheck : s.sys.st.nextSignalCheck peer started now = (st, some (.ok payload))) :
    s.filed = s.taken ++ [payload] ++ Sys.inbox { s.sys with st := st } peer := by
  obtain ⟨payload', rest, heq, hl, rfl⟩ | ⟨-, hno | ⟨_, _, -, hno⟩⟩ :=
    State.nextSignalCheck_cases hcheck
  · cases heq
    rw [h.filed, Sys.inbox, Sys.inbox, hl, AList.lookup_insert, List.append_assoc]
    rfl
  · cases hno
  · cases hno

/-- A step keeps it so. -/
theorem Consumes.step (h : Consumes peer decode refuses s)
    (hst : ConsumeStep tid peer started decode refuses s s') :
    Consumes peer decode refuses s' := by
  cases hst with
  | around _ hinbox => exact ⟨by rw [h.filed, hinbox, List.append_assoc], h.follows, h.giving⟩
  | took _ hc hg hcheck =>
    refine ⟨h.take hcheck, fun _ => ⟨.parked, ?_⟩, fun remote hgive => ?_⟩
    · rw [consumeSignaling, Consumption.wait_parked, consumed_concat, h.open_ hc hg]
    · cases hg.symm.trans hgive
  | @handed st payload remote _ hc hg hcheck hsome =>
    refine ⟨h.take hcheck, nofun, fun remote' hgive => ?_⟩
    cases hgive
    refine ⟨hc, ?_⟩
    rw [consumed_concat, h.open_ hc hg]
    exact Consumption.take_remote hc hsome
  | given _ hg =>
    obtain ⟨-, hc⟩ := h.giving _ hg
    exact ⟨h.filed, fun _ => ⟨.parked, by rw [consumeSignaling, Consumption.wait_parked, hc]⟩, nofun⟩
  | parked _ _ _ hcheck =>
    obtain ⟨payload', rest, heq, -⟩ | ⟨rfl, -⟩ := State.nextSignalCheck_cases hcheck
    · cases heq
    · exact ⟨h.filed, h.follows, h.giving⟩
  | failed _ hc hg hcheck =>
    obtain ⟨payload', rest, heq, -⟩ | ⟨rfl, hno | ⟨silence, err, hsilence, heq⟩⟩ :=
      State.nextSignalCheck_cases hcheck
    · cases heq
    · cases hno
    · cases heq
      refine ⟨h.filed, fun _ => ⟨silence, ?_⟩, fun remote hgive => ?_⟩
      · rw [consumeSignaling, h.open_ hc hg, Consumption.wait, hc, hsilence]
        rfl
      · cases hg.symm.trans hgive

/-- In every run, the session follows `consume_signaling`. -/
theorem consumes_reachable (hs : (consuming tid peer started decode refuses).Reachable s) :
    Consumes peer decode refuses s := by
  refine hs.invariant (P := Consumes peer decode refuses) ?_ ?_
  · rintro s ⟨-, hs⟩
    rw [hs]
    exact ⟨rfl, fun _ => ⟨.parked, rfl⟩, nofun⟩
  · exact fun s s' _ hst h => h.step hst

end Session

/-! ## One more offer -/

section

variable {decode : Bytes → Option Signal} {refuses : List Remote → Remote → Option String}
  {c : Consumption} {payload : Bytes}

/-- With no payload to come, no offer does. -/
theorem not_offerNext_nil : ¬OfferNext decode [] := by
  rintro ⟨skipped, offer, sdp, rest, heq, -⟩
  cases skipped <;> cases heq

/-- The next payload is an offer, or it is skipped and an offer comes after it. -/
theorem offerNext_cons {payloads : List Bytes} :
    OfferNext decode (payload :: payloads) ↔ (∃ sdp, decode payload = some (.offer sdp)) ∨
      (decode payload = none ∨ decode payload = some .endOfCandidates) ∧
        OfferNext decode payloads := by
  constructor
  · rintro ⟨skipped, offer, sdp, rest, heq, hskip, ho⟩
    cases skipped with
    | nil =>
      cases heq
      exact .inl ⟨sdp, ho⟩
    | cons first skipped =>
      cases heq
      exact .inr ⟨hskip _ List.mem_cons_self, skipped, offer, sdp, rest, rfl,
        fun p hp => hskip p (List.mem_cons_of_mem _ hp), ho⟩
  · rintro (⟨sdp, ho⟩ | ⟨hfirst, skipped, offer, sdp, rest, rfl, hskip, ho⟩)
    · exact ⟨[], payload, sdp, payloads, rfl, nofun, ho⟩
    · exact ⟨payload :: skipped, offer, sdp, rest, rfl, List.forall_mem_cons.2 ⟨hfirst, hskip⟩, ho⟩

/-- An answer or a candidate is not skipped, and is no offer. -/
theorem not_offerNext_remote {remote : Remote} {payloads : List Bytes}
    (hd : (decode payload).bind Signal.remote = some remote) :
    ¬OfferNext decode (payload :: payloads) := by
  rw [offerNext_cons]
  rintro (⟨sdp, hoffer⟩ | ⟨hskip | hskip, -⟩)
  · simp [hoffer, Signal.remote] at hd
  · simp [hskip] at hd
  · simp [hskip, Signal.remote] at hd

namespace Consumption

/-- What was handed to the peer connection stays so. -/
theorem foldl_applied (payloads : List Bytes) (c : Consumption) :
    c.applied <+: (payloads.foldl (take decode refuses) c).applied := by
  induction payloads generalizing c with
  | nil => exact List.prefix_rfl
  | cons payload payloads ih =>
    refine List.IsPrefix.trans ?_ (ih (c.take decode refuses payload))
    by_cases hc : c.result = none
    · rcases @take_open decode refuses c payload hc with
        ⟨h, -⟩ | ⟨h, -⟩ | ⟨sdp, h, -⟩ | ⟨remote, h, -⟩ <;> rw [h]
      · exact List.prefix_rfl
      · exact List.prefix_rfl
      · exact List.prefix_append _ _
    · rw [take_returned hc]

/-- Once one more answer or candidate is handed over, it is too late to fail as if it were
    not. -/
theorem wait_apply_ne (payloads : List Bytes) (silence : Silence) (remote : Remote)
    (sdp : String) :
    (payloads.foldl (take decode refuses) (c.apply refuses remote)).wait silence ≠
      c.body refuses (some (.offer sdp)) := by
  intro heq
  have happlied : (payloads.foldl (take decode refuses) (c.apply refuses remote)).applied =
      c.applied := by simpa only [wait, body] using congrArg applied heq
  have hprefix := (@foldl_applied decode refuses payloads (c.apply refuses remote)).length_le
  rw [happlied, apply, List.length_append] at hprefix
  exact absurd hprefix (Nat.not_succ_le_self _)

/-- A consumption fails at an offer, without having handed over anything more, exactly if
    the first payload that is not skipped is one. -/
theorem wait_eq_iff (hc : c.result = none) (payloads : List Bytes) (silence : Silence)
    (sdp : String) :
    (payloads.foldl (take decode refuses) c).wait silence = c.body refuses (some (.offer sdp)) ↔
      OfferNext decode payloads := by
  induction payloads with
  | nil =>
    refine iff_of_false (fun h => ?_) not_offerNext_nil
    have hresult := congrArg result h
    rw [List.foldl_nil, wait, hc, body] at hresult
    cases silence with
    | parked => cases hresult
    | closed => cases hresult
    | timedOut => simp [Silence.report] at hresult
  | cons payload payloads ih =>
    rw [List.foldl_cons]
    rcases @take_open decode refuses c payload hc with
      ⟨h, hd⟩ | ⟨h, hd⟩ | ⟨sdp', h, hd⟩ | ⟨remote, h, hd⟩ <;> rw [h]
    · -- The payload is skipped.
      rw [ih, offerNext_cons]
      rcases hd with hd | hd <;> simp [hd]
    · rw [foldl_returned (by simp [body]), offerNext_cons]
      simp [body, wait, hd]
    · rw [foldl_returned (by simp [body]), offerNext_cons]
      simp [body, wait, hd]
    · exact iff_of_false (wait_apply_ne _ _ _ _) (not_offerNext_remote hd)

end Consumption

/-- One more offer leaves what a session hands over and returns as it is if and only if the
    payloads before it have ended the consumption, or an offer comes next anyway. -/
theorem consume_offer_iff {before after : List Bytes} {offer : Bytes} {sdp : String}
    {silence : Silence} (ho : decode offer = some (.offer sdp)) :
    consumeSignaling decode refuses (before ++ offer :: after) silence =
        consumeSignaling decode refuses (before ++ after) silence ↔
      Over decode refuses before ∨ OfferNext decode after := by
  have hspec := (@consumed_spec decode refuses before).1
  rw [consumeSignaling, consumeSignaling, consumed, consumed, List.foldl_append,
    List.foldl_append, ← consumed, List.foldl_cons]
  by_cases hc : (consumed decode refuses before).result = none
  · -- The consumption comes to the offer, and fails.
    have htake : (consumed decode refuses before).take decode refuses offer =
        (consumed decode refuses before).body refuses (some (.offer sdp)) := by
      rw [Consumption.take, hc, if_neg (by simp), nextSignal, ho]
      rfl
    have hbody : ((consumed decode refuses before).body refuses (some (.offer sdp))).result ≠ none :=
      by simp [Consumption.body]
    have hwait : ((consumed decode refuses before).body refuses (some (.offer sdp))).wait silence =
        (consumed decode refuses before).body refuses (some (.offer sdp)) := rfl
    rw [htake, Consumption.foldl_returned hbody, hwait, eq_comm, Consumption.wait_eq_iff hc,
      or_iff_right (fun h => hspec.2 h hc)]
  · rw [Consumption.take_returned hc, Consumption.foldl_returned hc]
    exact iff_of_true rfl (.inl (hspec.1 hc))

end

/-- The JSON of an offer, and of `done`. -/
def Signal.offerJson : Bytes := "\x7b\"type\":\"offer\",\"sdp\":\"v=0\"\x7d".toUTF8.toList
def Signal.doneJson : Bytes := "\x7b\"type\":\"done\"\x7d".toUTF8.toList

/-- What they are decoded to. -/
def Signal.ofJson (payload : Bytes) : Option Signal :=
  if payload = offerJson then some (.offer "v=0")
  else if payload = doneJson then some .done
  else none

theorem Signal.ofJson_offer : ofJson offerJson = some (.offer "v=0") := if_pos rfl

theorem Signal.ofJson_done : ofJson doneJson = some .done := by
  rw [ofJson, if_neg (by decide +kernel), if_pos rfl]

/-- An offer that comes after `done` disturbs nothing. -/
theorem consume_offer_late :
    consumeSignaling Signal.ofJson (fun _ _ => none) ([Signal.doneJson] ++ [Signal.offerJson])
        .parked =
      consumeSignaling Signal.ofJson (fun _ _ => none) ([Signal.doneJson] ++ []) .parked :=
  (consume_offer_iff Signal.ofJson_offer).2
    (.inl ⟨[], Signal.doneJson, [], rfl, .inl Signal.ofJson_done⟩)

/-- An offer that comes before it makes a session fail that would have succeeded. -/
theorem consume_offer_early :
    consumeSignaling Signal.ofJson (fun _ _ => none) ([] ++ Signal.offerJson :: [Signal.doneJson])
        .parked ≠
      consumeSignaling Signal.ofJson (fun _ _ => none) ([] ++ [Signal.doneJson]) .parked := by
  intro h
  have hresult := congrArg Consumption.result h
  simp [consumeSignaling, consumed, Consumption.take, Consumption.new, nextSignal,
    Signal.ofJson_offer, Signal.ofJson_done, Consumption.body, Consumption.wait] at hresult

end IrohEndpoint
