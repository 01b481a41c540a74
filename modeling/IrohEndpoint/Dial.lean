import IrohEndpoint.Consume
import IrohEndpoint.Sessions

/-!
# The offerer's dance

Once an offerer has published its own signals, `dial` consumes those of its peer, waits for
the peer connection to connect, and then for the channel to open. It has a session guard: when
it returns, the slot of its peer is free. `DialStep` is its steps, and those of the endpoint
around it, which is in reachable states (`dialing_endpoint`).

It should go on to `wait_connected` after exactly one answer, and fail otherwise
(`AnswersOnly`). But `consume_signaling` returns at the first `done`, whatever has come before
it: it does not know whether the session awaits an answer. A peer connection without the
description of its peer does not connect, and `dial` does not bound the wait for it, so that
the slot stays taken (`not_answersOnly_early`). The offerer keeps to it if and only if exactly
one answer comes before the `done` that it takes (`answersOnly_iff`): at least one, if its peer
connection refuses a second one (`answersOnly_iff_answer`).
-/

namespace IrohEndpoint

open Transition

/-! ## The dance -/

/-- The state of a data channel. -/
inductive DataChannelState
  | connecting
  | open_
  | closing
  | closed
  deriving DecidableEq

/-- Where `dial` is, from when it consumes the signals of its peer. -/
inductive DialPhase
  | consuming
  /-- In `wait_connected`. -/
  | connecting
  /-- Reading the states of the channel. -/
  | opening
  | returned (result : Except Error Unit)

/-- An offerer, and the endpoint around it. -/
structure DialSys where
  session : ConsumeSys
  phase : DialPhase

/-- The offerer `tid` holds the slot of `peer`. -/
def Sys.Offers (s : Sys) (tid : TaskId) (peer : EndpointId) : Prop :=
  ∃ session, s.sessions.lookup tid = some session ∧ session.live = true ∧
    session.role = .offerer ∧ session.peer = peer

/-- What a read of the channel's states makes `dial` return: `ended` tells whether the stream of
    them has ended. -/
def openCheck (started now : Instant) (batch : List DataChannelState) (ended : Bool) :
    Option (Except Error Unit) :=
  if .open_ ∈ batch then some (.ok ())
  else if .closed ∈ batch ∨ ended = true then
    some (.error (.connectFailed "webrtc channel closed before opening"))
  else if now - started > signalDeadline then
    some (.error (.connectFailed "webrtc channel open timed out"))
  else none

section Dial

variable (tid : TaskId) (peer : EndpointId) (started : Instant)
  (decode : Bytes → Option Signal) (refuses : List Remote → Remote → Option String)

namespace ConsumeSys

/-- `dial` returns: the session guard frees the slot. -/
def leave (s : ConsumeSys) (result : Except Error Unit) : DialSys where
  session := { s with
    sys := { s.sys with
      st := s.sys.st.endSignaling peer
      sessions := s.sys.sessions.erase tid } }
  phase := .returned result

/-- How `dial` goes on from `consume_signaling`. -/
def resume (s : ConsumeSys) : DialSys :=
  match s.consumption.result with
  | none => ⟨s, .consuming⟩
  | some (.ok ()) => ⟨s, .connecting⟩
  | some (.error err) => s.leave tid peer (.error err)

end ConsumeSys

/-- A step of `dial`, or of the rest of the endpoint, which leaves the session alone. -/
inductive DialStep : DialSys → DialSys → Prop
  | consume {d : DialSys} {s : ConsumeSys} :
      d.phase = .consuming → ConsumeStep tid peer started decode refuses d.session s →
      s.sys.Offers tid peer → DialStep d (s.resume tid peer)
  /-- The endpoint goes on while `dial` awaits the peer connection or the channel. -/
  | around {d : DialSys} {sys : Sys} {new : List Bytes} :
      d.phase = .connecting ∨ d.phase = .opening → Step d.session.sys sys →
      sys.inbox peer = d.session.sys.inbox peer ++ new → sys.Offers tid peer →
      DialStep d { d with
        session := { d.session with sys := sys, filed := d.session.filed ++ new } }
  /-- `wait_connected` resolves. -/
  | connected {d : DialSys} :
      d.phase = .connecting → d.session.sys.quiet = true →
      DialStep d { d with phase := .opening }
  | unconnected {d : DialSys} {detail : String} :
      d.phase = .connecting → d.session.sys.quiet = true →
      DialStep d (d.session.leave tid peer (.error (rtc detail)))
  /-- A read of the channel's states. One that decides nothing changes nothing. -/
  | read {d : DialSys} {batch : List DataChannelState} {ended : Bool}
      {result : Except Error Unit} :
      d.phase = .opening → d.session.sys.quiet = true →
      openCheck started d.session.sys.now batch ended = some result →
      DialStep d (d.session.leave tid peer result)

/-- An offerer from when it begins to consume. What follows its return is not its own. -/
def dialing : System DialSys where
  init := {d | endpoint.Reachable d.session.sys ∧ d.session.sys.Offers tid peer ∧
    d = ⟨⟨d.session.sys, d.session.sys.inbox peer, [], .new, none⟩, .consuming⟩}
  step := DialStep tid peer started decode refuses

end Dial

/-! ## Answers -/

/-- The signal is an answer. -/
def Signal.isAnswer : Signal → Bool
  | answer _ => true
  | _ => false

/-- The peer connection is given a description. -/
def Remote.isDescription : Remote → Bool
  | description _ => true
  | iceCandidate _ _ _ => false

section Answers

variable (decode : Bytes → Option Signal)

/-- How many of the payloads are answers. -/
def answers (payloads : List Bytes) : ℕ :=
  payloads.countP fun payload => (decode payload).any Signal.isAnswer

/-- Exactly one answer comes before every `done`. -/
def Answered (payloads : List Bytes) : Prop :=
  ∀ before done after, payloads = before ++ done :: after → decode done = some .done →
    answers decode before = 1

/-- `dial` has gone past `consume_signaling`. -/
def DialSys.Proceeded (d : DialSys) : Prop :=
  d.phase ≠ .consuming ∧ d.session.consumption.result = some (.ok ())

/-- The offerer connects only on an answer. -/
structure AnswersOnly (peer : EndpointId) (d : DialSys) : Prop where
  /-- It has given its peer connection exactly one answer before it waits for it to connect. -/
  connects : d.Proceeded → d.session.consumption.applied.countP Remote.isDescription = 1
  /-- A `done` that comes otherwise ends the session with an error, and frees the slot. -/
  ends : ∀ before done after, d.session.taken = before ++ done :: after →
    decode done = some .done → answers decode before ≠ 1 →
    ∃ err, d.phase = .returned (.error err) ∧ d.session.sys.st.signaling.lookup peer = none

variable {decode}

/-- The answers among the payloads are the descriptions that they hand over. -/
theorem countP_remotes (payloads : List Bytes) :
    (remotes decode payloads).countP Remote.isDescription = answers decode payloads := by
  induction payloads with
  | nil => rfl
  | cons payload payloads ih =>
    rw [answers, List.countP_cons, ← answers, ← ih, remotes, List.filterMap_cons, ← remotes]
    cases decode payload with
    | none => rfl
    | some signal =>
      cases signal with
      | answer => exact List.countP_cons
      | _ => rfl

end Answers

/-! ## The end of a consumption -/

section Consumed

variable {decode : Bytes → Option Signal} {refuses : List Remote → Remote → Option String}

/-- The first `done` ends a consumption, with what was handed over before it. -/
theorem consumed_done {before after : List Bytes} {done : Bytes}
    (hopen : (consumed decode refuses before).result = none) (hdone : decode done = some .done) :
    consumed decode refuses (before ++ done :: after) = ⟨remotes decode before, some (.ok ())⟩ := by
  have htake : (consumed decode refuses before).take decode refuses done =
      ⟨remotes decode before, some (.ok ())⟩ := by
    rw [Consumption.take, hopen, if_neg (by simp), nextSignal, hdone,
      ← (@consumed_spec decode refuses before).2 hopen]
    rfl
  rw [consumed, List.foldl_append, ← consumed, List.foldl_cons, htake]
  exact Consumption.foldl_returned (by simp) after

/-- A consumption that succeeds has come to a `done`. -/
theorem consumed_ok {payloads : List Bytes}
    (hok : (consumed decode refuses payloads).result = some (.ok ())) :
    ∃ before done after, payloads = before ++ done :: after ∧ decode done = some .done ∧
      (consumed decode refuses before).result = none := by
  induction payloads using List.reverseRecOn with
  | nil => cases hok
  | append_singleton taken payload ih =>
    rw [consumed_concat] at hok
    by_cases hc : (consumed decode refuses taken).result = none
    · rcases @Consumption.take_open decode refuses _ payload hc with
        ⟨h, -⟩ | ⟨h, hd⟩ | ⟨sdp, h, -⟩ | ⟨remote, h, -⟩ <;> rw [h] at hok
      · cases hc.symm.trans hok
      · exact ⟨taken, payload, [], rfl, hd, hc⟩
      · cases hok
      · obtain ⟨detail, -, herr⟩ := Option.map_eq_some_iff.1 hok
        cases herr
    · rw [Consumption.take_returned hc] at hok
      obtain ⟨before, done, after, rfl, hdone, hopen⟩ := ih hok
      exact ⟨before, done, after ++ [payload], by simp, hdone, hopen⟩

variable {tid : TaskId} {peer : EndpointId} {started : Instant} {s s' : ConsumeSys}

/-- A session takes a payload only while it has not returned. -/
def Prompt (decode : Bytes → Option Signal) (refuses : List Remote → Remote → Option String)
    (taken : List Bytes) : Prop :=
  ∀ before payload after, taken = before ++ payload :: after →
    (consumed decode refuses before).result = none

theorem Prompt.concat {taken : List Bytes} {payload : Bytes} (h : Prompt decode refuses taken)
    (hopen : (consumed decode refuses taken).result = none) :
    Prompt decode refuses (taken ++ [payload]) := by
  intro before payload' after heq
  rcases List.eq_nil_or_concat after with rfl | ⟨after, last, rfl⟩
  · obtain ⟨rfl, -⟩ := List.append_inj' heq rfl
    exact hopen
  · rw [List.concat_eq_append, ← List.cons_append, ← List.append_assoc] at heq
    exact h before payload' after (List.append_inj' heq rfl).1

theorem prompt_reachable (hs : (consuming tid peer started decode refuses).Reachable s) :
    Prompt decode refuses s.taken := by
  refine hs.invariant (P := fun s => Prompt decode refuses s.taken) ?_ ?_
  · rintro s ⟨-, hs⟩
    rw [hs]
    intro before payload after heq
    cases before <;> cases heq
  · intro s s' hs hst h
    have hfollows := consumes_reachable hs
    cases hst with
    | took _ hc hg | handed _ hc hg =>
      refine h.concat ?_
      rw [hfollows.open_ hc hg, hc]
    | _ => exact h

/-- A session that has taken a `done` has gone on from `consume_signaling`, with what was handed
    over before it. -/
theorem consuming_done (hs : (consuming tid peer started decode refuses).Reachable s)
    {before after : List Bytes} {done : Bytes} (htaken : s.taken = before ++ done :: after)
    (hdone : decode done = some .done) :
    s.consumption = ⟨remotes decode before, some (.ok ())⟩ := by
  have hopen := prompt_reachable hs before done after htaken
  have hconsumed := @consumed_done decode refuses before after done hopen hdone
  rw [← htaken] at hconsumed
  have hfollows := consumes_reachable hs
  cases hgiving : s.giving with
  | none =>
    obtain ⟨silence, h⟩ := hfollows.follows hgiving
    rw [h, consumeSignaling, hconsumed]
    rfl
  | some remote =>
    -- The peer connection cannot be asked to answer by a `done`.
    obtain ⟨-, h⟩ := hfollows.giving remote hgiving
    have hresult : (s.consumption.apply refuses remote).result = some (.ok ()) := by
      rw [← h, hconsumed]
    obtain ⟨detail, -, herr⟩ := Option.map_eq_some_iff.1 hresult
    cases herr

/-- A session that has gone on from `consume_signaling` has taken a `done`. -/
theorem consuming_ok (hs : (consuming tid peer started decode refuses).Reachable s)
    (hok : s.consumption.result = some (.ok ())) :
    ∃ before done after, s.taken = before ++ done :: after ∧ decode done = some .done := by
  have hfollows := consumes_reachable hs
  have hgiving : s.giving = none := by
    cases hgiving : s.giving with
    | none => rfl
    | some remote => cases (hfollows.giving remote hgiving).1.symm.trans hok
  obtain ⟨silence, h⟩ := hfollows.follows hgiving
  have hconsumed : (consumed decode refuses s.taken).result = some (.ok ()) := by
    rw [h, consumeSignaling, Consumption.wait, Option.or_eq_some_iff] at hok
    rcases hok with hok | ⟨-, hok⟩
    · exact hok
    · cases silence <;> cases hok
  obtain ⟨before, done, after, htaken, hdone, -⟩ := consumed_ok hconsumed
  exact ⟨before, done, after, htaken, hdone⟩

end Consumed

/-! ## The runs of an offerer -/

section Runs

variable {tid : TaskId} {peer : EndpointId} {started : Instant}
  {decode : Bytes → Option Signal} {refuses : List Remote → Remote → Option String}
  {d d' : DialSys}

/-- `dial` follows a consumption, goes on from it as it has returned, and has freed the slot when
    it returns itself. -/
structure Dials (tid : TaskId) (peer : EndpointId) (started : Instant)
    (decode : Bytes → Option Signal) (refuses : List Remote → Remote → Option String)
    (d : DialSys) : Prop where
  session : ∃ s, (consuming tid peer started decode refuses).Reachable s ∧
    d.session.taken = s.taken ∧ d.session.consumption = s.consumption ∧
    ((∀ result, d.phase ≠ .returned result) → d.session = s)
  consuming : d.phase = .consuming ↔ d.session.consumption.result = none
  failed : ∀ err, d.session.consumption.result = some (.error err) →
    d.phase = .returned (.error err)
  freed : ∀ result, d.phase = .returned result →
    d.session.sys.st.signaling.lookup peer = none

/-- A return frees the slot, and leaves the consumption as it is. -/
theorem Dials.leave {s : ConsumeSys}
    (hs : (IrohEndpoint.consuming tid peer started decode refuses).Reachable s)
    {result : Except Error Unit} (hreturned : s.consumption.result ≠ none)
    (hfailed : ∀ err, s.consumption.result = some (.error err) → result = .error err) :
    Dials tid peer started decode refuses (s.leave tid peer result) where
  session := ⟨s, hs, rfl, rfl, fun h => absurd rfl (h result)⟩
  consuming := iff_of_false nofun hreturned
  failed err herr := congrArg DialPhase.returned (hfailed err herr)
  freed _ _ := AList.lookup_erase _ _

/-- What `consume_signaling` has returned decides how `dial` goes on. -/
theorem Dials.resume {s : ConsumeSys}
    (hs : (IrohEndpoint.consuming tid peer started decode refuses).Reachable s) :
    Dials tid peer started decode refuses (s.resume tid peer) := by
  rw [ConsumeSys.resume]
  split <;> rename_i hr
  · refine ⟨⟨s, hs, rfl, rfl, fun _ => rfl⟩, iff_of_true rfl hr, ?_, nofun⟩
    exact fun err herr => nomatch hr.symm.trans herr
  · refine ⟨⟨s, hs, rfl, rfl, fun _ => rfl⟩, iff_of_false nofun (by simp [hr]), ?_, nofun⟩
    exact fun err herr => nomatch hr.symm.trans herr
  · refine Dials.leave hs (by simp [hr]) fun err' herr => ?_
    exact Option.some.inj (hr.symm.trans herr)

/-- Past `consume_signaling`, which has succeeded, `dial` awaits the peer connection. -/
theorem Dials.past (h : Dials tid peer started decode refuses d)
    (hphase : d.phase = .connecting ∨ d.phase = .opening) :
    (IrohEndpoint.consuming tid peer started decode refuses).Reachable d.session ∧
      d.session.consumption.result = some (.ok ()) := by
  obtain ⟨s, hs, -, -, hsame⟩ := h.session
  have hreturned : ∀ result, d.phase ≠ .returned result := by
    intro result hresult
    rcases hphase with hphase | hphase <;> cases hphase.symm.trans hresult
  refine ⟨hsame hreturned ▸ hs, ?_⟩
  match hresult : d.session.consumption.result with
  | none =>
    rcases hphase with hphase | hphase <;> cases hphase.symm.trans (h.consuming.2 hresult)
  | some (.error err) => exact absurd (h.failed err hresult) (hreturned _)
  | some (.ok ()) => rfl

/-- So it goes on while it awaits it. -/
theorem Dials.of_past {s : ConsumeSys} {phase : DialPhase}
    (hs : (IrohEndpoint.consuming tid peer started decode refuses).Reachable s)
    (hok : s.consumption.result = some (.ok ()))
    (hphase : phase = .connecting ∨ phase = .opening) :
    Dials tid peer started decode refuses ⟨s, phase⟩ := by
  refine ⟨⟨s, hs, rfl, rfl, fun _ => rfl⟩, iff_of_false ?_ (by simp [hok]), fun err herr => ?_,
    fun result hresult => ?_⟩
  · rcases hphase with rfl | rfl <;> exact nofun
  · cases hok.symm.trans herr
  · rcases hphase with rfl | rfl <;> cases hresult

/-- A step keeps it so. -/
theorem Dials.step (h : Dials tid peer started decode refuses d)
    (hst : DialStep tid peer started decode refuses d d') :
    Dials tid peer started decode refuses d' := by
  cases hst with
  | consume hphase hconsume =>
    obtain ⟨s, hs, -, -, hsame⟩ := h.session
    obtain rfl := hsame fun result hresult => nomatch hphase.symm.trans hresult
    exact .resume (hs.step hconsume)
  | around hphase hst hinbox =>
    obtain ⟨hs, hok⟩ := h.past hphase
    exact .of_past (hs.step (.around hst hinbox)) hok hphase
  | connected hphase =>
    obtain ⟨hs, hok⟩ := h.past (.inl hphase)
    exact .of_past hs hok (.inr rfl)
  | unconnected hphase =>
    obtain ⟨hs, hok⟩ := h.past (.inl hphase)
    exact .leave hs (by simp [hok]) fun err herr => nomatch hok.symm.trans herr
  | read hphase =>
    obtain ⟨hs, hok⟩ := h.past (.inr hphase)
    exact .leave hs (by simp [hok]) fun err herr => nomatch hok.symm.trans herr

theorem dials_reachable (hd : (dialing tid peer started decode refuses).Reachable d) :
    Dials tid peer started decode refuses d := by
  refine hd.invariant (P := Dials tid peer started decode refuses) ?_ fun _ _ _ hst h => h.step hst
  rintro d ⟨hs, -, hd⟩
  rw [hd]
  let start : ConsumeSys := ⟨d.session.sys, d.session.sys.inbox peer, [], .new, none⟩
  exact ⟨⟨start, .init ⟨hs, rfl⟩, rfl, rfl, fun _ => rfl⟩, iff_of_true rfl rfl, nofun, nofun⟩

/-- **The offerer connects only on an answer** if and only if exactly one answer comes before
    the `done` that it takes. -/
theorem answersOnly_iff (hd : (dialing tid peer started decode refuses).Reachable d) :
    AnswersOnly decode peer d ↔ Answered decode d.session.taken := by
  have h := dials_reachable hd
  obtain ⟨s, hs, htaken, hconsumption, -⟩ := h.session
  constructor
  · intro honly before done after heq hdone
    rw [htaken] at heq
    have hs := consuming_done hs heq hdone
    -- The consumption has succeeded, with what was handed over before the `done`.
    have hproceeded : d.Proceeded := by
      rw [DialSys.Proceeded, Ne, h.consuming, hconsumption, hs]
      exact ⟨nofun, rfl⟩
    have happlied := honly.connects hproceeded
    rwa [hconsumption, hs, countP_remotes] at happlied
  · intro hanswered
    refine ⟨fun hproceeded => ?_, fun before done after heq hdone hne => ?_⟩
    · have hok := hproceeded.2
      rw [hconsumption] at hok ⊢
      obtain ⟨before, done, after, heq, hdone⟩ := consuming_ok hs hok
      rw [consuming_done hs heq hdone, countP_remotes]
      exact hanswered before done after (htaken.trans heq) hdone
    · exact absurd (hanswered before done after heq hdone) hne

/-- A peer connection that takes one description only has been given at most one before its
    consumption has returned. -/
theorem answers_le_one (hrefuses : ∀ applied sdp, applied.countP Remote.isDescription ≠ 0 →
    refuses applied (.description sdp) ≠ none) {payloads : List Bytes}
    (hopen : (consumed decode refuses payloads).result = none) : answers decode payloads ≤ 1 := by
  induction payloads using List.reverseRecOn with
  | nil => exact Nat.zero_le 1
  | append_singleton taken payload ih =>
    rw [consumed_concat] at hopen
    have hc : (consumed decode refuses taken).result = none := by
      by_contra hc
      rw [Consumption.take_returned hc] at hopen
      exact hc hopen
    have hone := ih hc
    rw [answers, List.countP_append, List.countP_singleton, ← answers]
    split <;> rename_i hanswer
    · -- One more answer is refused if it is not the first.
      obtain ⟨signal, hd, hsignal⟩ := (Option.any_eq_true _ _).1 hanswer
      obtain ⟨sdp, rfl⟩ : ∃ sdp, signal = .answer sdp := by
        match signal, hsignal with
        | .answer sdp, _ => exact ⟨sdp, rfl⟩
      have hremote : (decode payload).bind Signal.remote = some (.description sdp) := by
        rw [hd]
        rfl
      rw [Consumption.take_remote hc hremote, Consumption.apply, Option.map_eq_none_iff] at hopen
      have hnone : answers decode taken = 0 := by
        by_contra hne
        rw [← countP_remotes, ← (@consumed_spec decode refuses taken).2 hc] at hne
        exact hrefuses _ sdp hne hopen
      rw [hnone]
    · exact hone

/-- If the peer connection takes one description only, then only a `done` before the answer
    makes a difference. -/
theorem answersOnly_iff_answer (hrefuses : ∀ applied sdp,
    applied.countP Remote.isDescription ≠ 0 → refuses applied (.description sdp) ≠ none)
    (hd : (dialing tid peer started decode refuses).Reachable d) :
    AnswersOnly decode peer d ↔ ∀ before done after, d.session.taken = before ++ done :: after →
      decode done = some .done → answers decode before ≠ 0 := by
  obtain ⟨s, hs, htaken, -⟩ := (dials_reachable hd).session
  rw [answersOnly_iff hd]
  constructor
  · intro h before done after heq hdone
    rw [h before done after heq hdone]
    exact one_ne_zero
  · intro h before done after heq hdone
    have hopen := prompt_reachable hs before done after (htaken.symm.trans heq)
    have hpos := Nat.pos_of_ne_zero (h before done after heq hdone)
    exact le_antisymm (answers_le_one hrefuses hopen) hpos

end Runs

/-! ## The endpoint around it -/

section Endpoint

variable {tid : TaskId} {peer : EndpointId} {started : Instant}
  {decode : Bytes → Option Signal} {refuses : List Remote → Remote → Option String}
  {d d' : DialSys}

/-- A check of the session for its next signal is a step of the endpoint. -/
theorem Sys.Takes.receive {s : Sys} (h : s.Takes tid peer) {st : State}
    {result : Option (Except Error Bytes)}
    (hcheck : s.st.nextSignalCheck peer started s.now = (st, result)) :
    Step s { s with st := st } := by
  obtain ⟨hquiet, session, hl, hlive, rfl⟩ := h
  have hst : (s.st.nextSignalCheck session.peer started s.now).1 = st := by rw [hcheck]
  rw [← hst]
  exact .session (@SessionStep.receive s tid session started hquiet hl hlive)

/-- A session goes on as the endpoint's sessions do. -/
theorem ConsumeStep.endpoint {s s' : ConsumeSys}
    (h : ConsumeStep tid peer started decode refuses s s') :
    endpoint.Leads s.sys s'.sys := by
  cases h with
  | around hst => exact .single hst
  | took htakes _ _ hcheck | handed htakes _ _ hcheck | failed htakes _ _ hcheck =>
    exact .single (htakes.receive hcheck)
  | given => exact .refl
  | parked htakes _ _ hcheck =>
    exact .tail (.single (htakes.receive hcheck)) (.repark htakes.1)

/-- `consume_signaling` returns while no other work of the endpoint runs. -/
theorem ConsumeStep.quiet {s s' : ConsumeSys}
    (h : ConsumeStep tid peer started decode refuses s s') (hopen : s.consumption.result = none)
    (hreturned : s'.consumption.result ≠ none) : s'.sys.quiet = true := by
  cases h with
  | around | handed | parked => exact absurd hopen hreturned
  | took htakes | failed htakes => exact htakes.1
  | given hquiet => exact hquiet

/-- A return of `dial` ends its session. -/
theorem Sys.Offers.leave {s : ConsumeSys} (h : s.sys.Offers tid peer) (hquiet : s.sys.quiet = true)
    (result : Except Error Unit) : Step s.sys (s.leave tid peer result).session.sys := by
  obtain ⟨session, hl, hlive, -, rfl⟩ := h
  exact .session (.fail hquiet hl hlive)

/-- The endpoint around an offerer is in reachable states, and the offerer has its session until
    it returns. -/
theorem dialing_endpoint (hd : (dialing tid peer started decode refuses).Reachable d) :
    endpoint.Reachable d.session.sys ∧
      ((∀ result, d.phase ≠ .returned result) → d.session.sys.Offers tid peer) := by
  refine hd.invariant (P := fun d => endpoint.Reachable d.session.sys ∧
    ((∀ result, d.phase ≠ .returned result) → d.session.sys.Offers tid peer)) ?_ ?_
  · rintro d ⟨hs, hoffers, -⟩
    exact ⟨hs, fun _ => hoffers⟩
  · rintro d d' hd hst ⟨hs, hoffers⟩
    cases hst with
    | @consume s hphase hconsume ho =>
      have hsys := hs.leads hconsume.endpoint
      have hopen := (dials_reachable hd).consuming.1 hphase
      rw [ConsumeSys.resume]
      split <;> rename_i hr
      · exact ⟨hsys, fun _ => ho⟩
      · exact ⟨hsys, fun _ => ho⟩
      · have hquiet := hconsume.quiet hopen (by simp [hr])
        exact ⟨hsys.step (ho.leave hquiet _), fun hn => absurd rfl (hn _)⟩
    | around _ hst _ ho => exact ⟨hs.step hst, fun _ => ho⟩
    | connected hphase =>
      exact ⟨hs, fun _ => hoffers fun result hresult => nomatch hphase.symm.trans hresult⟩
    | unconnected hphase hquiet =>
      have ho := hoffers fun result hresult => nomatch hphase.symm.trans hresult
      exact ⟨hs.step (ho.leave hquiet _), fun hn => absurd rfl (hn _)⟩
    | read hphase hquiet =>
      have ho := hoffers fun result hresult => nomatch hphase.symm.trans hresult
      exact ⟨hs.step (ho.leave hquiet _), fun hn => absurd rfl (hn _)⟩

/-- Until `dial` returns, the slot of the peer is taken. -/
theorem dialing_slot (hd : (dialing tid peer started decode refuses).Reachable d)
    (hn : ∀ result, d.phase ≠ .returned result) :
    ∃ via, d.session.sys.st.signaling.lookup peer = some via := by
  obtain ⟨hs, hoffers⟩ := dialing_endpoint hd
  obtain ⟨session, hl, hlive, -, hpeer⟩ := hoffers hn
  exact ⟨session.via, ((oneSession_reachable hs).slot peer session.via).2
    ⟨tid, session, hl, hlive, hpeer, rfl⟩⟩

end Endpoint

/-! ## A `done` that comes early -/

/-- The JSON of an answer. -/
def Signal.answerJson : Bytes := "\x7b\"type\":\"answer\",\"sdp\":\"v=0\"\x7d".toUTF8.toList

/-- What the signals of an answerer are decoded to. -/
def Signal.ofAnswerer (payload : Bytes) : Option Signal :=
  if payload = answerJson then some (.answer "v=0") else ofJson payload

theorem Signal.ofAnswerer_answer : ofAnswerer answerJson = some (.answer "v=0") := if_pos rfl

theorem Signal.ofAnswerer_done : ofAnswerer doneJson = some .done := by
  rw [ofAnswerer, if_neg (by decide +kernel), ofJson_done]

/-- A `connect` with a `webrtc` hint spawns an offerer, which publishes its signals. Two signals
    of its peer are filed, and the pump rests. -/
theorem offered_reachable (first second : Bytes) : ∃ s, endpoint.Reachable s ∧
    s.Offers 0 (Vector.replicate 32 7) ∧ s.quiet = true ∧ s.st.closed = false ∧
    s.st.signalInboxes.lookup (Vector.replicate 32 7) = some [first, second] := by
  have hidle := idle_reachable (.relayOnly "https://home.example") true 0
  have hcall := hidle.step (.connect (@ConnectStep.call _ 0
    ⟨List.replicate 32 7, [.webrtc "https://other.example"]⟩ (Vector.replicate 32 7) rfl rfl rfl))
  have hskip := hcall.step (.connect (@ConnectStep.skip _ 0 _ .dial rfl rfl rfl rfl))
  have hclaimed := hskip.step (.connect (@ConnectStep.claimed _ 0 _ (.upgrade homeRelay)
    "https://other.example" _ rfl rfl rfl rfl rfl))
  have hopened := hclaimed.step (.connect (@ConnectStep.opened _ 0 _ (.upgrade homeRelay)
    "https://other.example" _ 1 rfl rfl rfl rfl rfl))
  have hdialed := hopened.step (.connect (@ConnectStep.dialed _ 0 _ homeRelay (some 1) _ _ _ 0 0
    rfl rfl rfl rfl rfl rfl))
  have hkicked := hdialed.step (.pump (.kicked rfl rfl rfl))
  have hdrain := hkicked.step (.pump (@PumpStep.drain _ (fun _ => ⟨[], false⟩) _ _ rfl rfl))
  have hflush := ((hdrain.step (.pump (.relayEmpty rfl rfl))).step
    (.pump (.udpEmpty rfl rfl))).step (.pump (.channelEmpty rfl rfl))
  have hselect := (hflush.step (.pump (.arm rfl))).step (.pump (.stay rfl rfl))
  have hrest := hselect.step (.pump (.suspend rfl rfl))
  have hbegin := hrest.step (.session (@SessionStep.begin _ 0 _ _ rfl rfl rfl rfl))
  have hoffer := hbegin.step
    (.session (@SessionStep.publish _ 0 _ 1 Signal.offerJson rfl rfl rfl rfl))
  have hdone := hoffer.step
    (.session (@SessionStep.publish _ 0 _ 1 Signal.doneJson rfl rfl rfl rfl))
  have hkicked' := hdone.step (.pump (.kicked rfl rfl rfl))
  have hdrain' := hkicked'.step (.pump (@PumpStep.drain _ (fun _ => ⟨[], false⟩) _ _ rfl rfl))
  have hsent := (hdrain'.step (.pump (.relaySend rfl rfl rfl))).step (.pump (.relaySent rfl rfl))
  have hsent' := (hsent.step (.pump (.relaySend rfl rfl rfl))).step (.pump (.relaySent rfl rfl))
  have hselect' := select_reachable hsent' rfl rfl rfl rfl rfl rfl
  have hfirst := hselect'.step (.pump (@PumpStep.relaySignal _ homeRelay ⟨0⟩ (Vector.replicate 32 7)
    (signalPrefix :: first) rfl rfl List.mem_cons_self rfl))
  have hdrain₁ := hfirst.step (.pump (@PumpStep.drain _ (fun _ => ⟨[], false⟩) _ _ rfl rfl))
  have hselect₁ := select_reachable hdrain₁ rfl rfl rfl rfl rfl rfl
  have hsecond := hselect₁.step (.pump (@PumpStep.relaySignal _ 1 ⟨1⟩
    (Vector.replicate 32 7) (signalPrefix :: second) rfl rfl List.mem_cons_self rfl))
  have hdrain₂ := hsecond.step (.pump (@PumpStep.drain _ (fun _ => ⟨[], false⟩) _ _ rfl rfl))
  have hselect₂ := select_reachable hdrain₂ rfl rfl rfl rfl rfl rfl
  have hrest₂ := hselect₂.step (.pump (.suspend rfl rfl))
  exact ⟨_, hrest₂, ⟨_, rfl, rfl, rfl, rfl⟩, rfl, rfl, rfl⟩

section Early

variable {tid : TaskId} {peer : EndpointId} {started now : Instant}
  {decode : Bytes → Option Signal} {refuses : List Remote → Remote → Option String}
  {payload : Bytes} {rest : List Bytes}

/-- While the endpoint is open, a session takes the first signal of its inbox. -/
theorem State.nextSignalCheck_cons {s : State} (hopen : s.closed = false)
    (hl : s.signalInboxes.lookup peer = some (payload :: rest)) :
    s.nextSignalCheck peer started now =
      ({ s with signalInboxes := s.signalInboxes.insert peer rest }, some (.ok payload)) := by
  rw [nextSignalCheck, if_neg (by simp [hopen]), popSignalInbox, hl]

/-- The offerer may take a signal. -/
theorem Sys.Offers.takes {s : Sys} (h : s.Offers tid peer) (hquiet : s.quiet = true) :
    s.Takes tid peer := by
  obtain ⟨session, hl, hlive, -, hpeer⟩ := h
  exact ⟨hquiet, session, hl, hlive, hpeer⟩

/-- Whatever has come before it, `done` makes the offerer go on to `wait_connected`. -/
theorem DialStep.done {s : ConsumeSys} (ho : s.sys.Offers tid peer) (hquiet : s.sys.quiet = true)
    (hopen : s.sys.st.closed = false)
    (hl : s.sys.st.signalInboxes.lookup peer = some (payload :: rest))
    (hc : s.consumption.result = none) (hg : s.giving = none)
    (hdone : decode payload = some .done) :
    DialStep tid peer started decode refuses ⟨s, .consuming⟩
      ⟨{ s with
          sys := { s.sys with
            st := { s.sys.st with signalInboxes := s.sys.st.signalInboxes.insert peer rest } }
          taken := s.taken ++ [payload]
          consumption := ⟨s.consumption.applied, some (.ok ())⟩ }, .connecting⟩ := by
  have htake : s.consumption.take decode refuses payload =
      ⟨s.consumption.applied, some (.ok ())⟩ := by
    rw [Consumption.take, hc, if_neg (by simp), nextSignal, hdone]
    rfl
  have hremote : (decode payload).bind Signal.remote = none := by rw [hdone]; rfl
  have htook := @ConsumeStep.took tid peer started decode refuses s _ payload (ho.takes hquiet) hc
    hg (State.nextSignalCheck_cons hopen hl) hremote
  have hstep := @DialStep.consume tid peer started decode refuses ⟨s, .consuming⟩ _ rfl htook ho
  rwa [htake] at hstep

end Early

/-- An offerer is given a `done` before the answer, for instance one that an earlier session has
    left over. It waits for a peer connection that knows nothing of its peer, without a deadline
    of its own, and holds the slot. -/
theorem not_answersOnly_early : ∃ d,
    (dialing 0 (Vector.replicate 32 7) 0 Signal.ofAnswerer fun _ _ => none).Reachable d ∧
      d.session.taken = [Signal.doneJson] ∧ d.session.consumption.applied = [] ∧
      d.phase = .connecting ∧
      (∃ via, d.session.sys.st.signaling.lookup (Vector.replicate 32 7) = some via) ∧
      ¬AnswersOnly Signal.ofAnswerer (Vector.replicate 32 7) d := by
  obtain ⟨s, hs, ho, hquiet, hopen, hl⟩ := offered_reachable Signal.doneJson Signal.answerJson
  let start : ConsumeSys := ⟨s, s.inbox (Vector.replicate 32 7), [], .new, none⟩
  have hstart : (dialing 0 (Vector.replicate 32 7) 0 Signal.ofAnswerer fun _ _ => none).Reachable
      ⟨start, .consuming⟩ := .init ⟨hs, ho, rfl⟩
  have hd := hstart.step (@DialStep.done 0 _ 0 _ _ _ _ start ho hquiet hopen hl rfl rfl
    Signal.ofAnswerer_done)
  refine ⟨_, hd, rfl, rfl, rfl, dialing_slot hd nofun, fun honly => ?_⟩
  have happlied := honly.connects ⟨nofun, rfl⟩
  cases happlied

/-- One answer, and then a `done`. -/
theorem answered_answer : Answered Signal.ofAnswerer [Signal.answerJson, Signal.doneJson] := by
  intro before done after heq hdone
  match before with
  | [] =>
    cases heq
    cases Signal.ofAnswerer_answer.symm.trans hdone
  | [payload] =>
    cases heq
    rw [answers, List.countP_singleton, Signal.ofAnswerer_answer]
    rfl
  | _ :: _ :: before =>
    have hlen := congrArg List.length heq
    simp at hlen

/-- An offerer is given an answer, and then a `done`. -/
theorem answersOnly_answer : ∃ d,
    (dialing 0 (Vector.replicate 32 7) 0 Signal.ofAnswerer fun _ _ => none).Reachable d ∧
      d.session.taken = [Signal.answerJson, Signal.doneJson] ∧ d.phase = .connecting ∧
      AnswersOnly Signal.ofAnswerer (Vector.replicate 32 7) d := by
  obtain ⟨s, hs, ho, hquiet, hopen, hl⟩ := offered_reachable Signal.answerJson Signal.doneJson
  let start : ConsumeSys := ⟨s, s.inbox (Vector.replicate 32 7), [], .new, none⟩
  have hstart : (dialing 0 (Vector.replicate 32 7) 0 Signal.ofAnswerer fun _ _ => none).Reachable
      ⟨start, .consuming⟩ := .init ⟨hs, ho, rfl⟩
  have hremote : (Signal.ofAnswerer Signal.answerJson).bind Signal.remote =
      some (.description "v=0") := by rw [Signal.ofAnswerer_answer]; rfl
  have hhanded := hstart.step (.consume rfl (.handed (ho.takes hquiet) rfl rfl
    (State.nextSignalCheck_cons hopen hl) hremote) ho)
  have hgiven := hhanded.step (.consume rfl (.given hquiet rfl) ho)
  have hd := hgiven.step (@DialStep.done 0 _ 0 _ _ _ _ _ ho hquiet hopen (AList.lookup_insert _)
    rfl rfl Signal.ofAnswerer_done)
  exact ⟨_, hd, rfl, rfl, (answersOnly_iff hd).2 answered_answer⟩

end IrohEndpoint
